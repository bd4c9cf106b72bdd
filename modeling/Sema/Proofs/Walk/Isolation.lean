import Sema.Proofs.Walk.MethodVisit

/-!
# Bodies in isolation

Two programs that differ in the body of one method are analysed side by side. Up to that method the
two sessions are the same. After it they may differ in the variables that the table has gained, in
the marks of use and in the locals under the name of the method, and a later method sees none of
these: it opens a scope of its own, starts with locals of its own, and asks the table only for types
that the table had before.
-/

namespace Sema

/-- The method with other statements, at the same place and with the same signature. -/
def Located.withBody (method : Located Method) (body : List (Located Stmt)) : Located Method :=
  ⟨method.pos, { method.data with body }⟩

namespace Session

/-- Two moments between methods that may differ in what no later method sees, and in the locals
under one name. -/
structure Indistinct (base : Symbols) (options : Options) (name : String)
    (left right : Session) : Prop where
  left_between : left.Between base options
  right_between : right.Between base options
  catalogue : left.catalogue = right.catalogue
  locals : ∀ other, other ≠ name → left.locals.find? other = right.locals.find? other

variable {base : Symbols} {options : Options} {name : String} {left right session : Session}

theorem indistinct_refl (between : session.Between base options) (name : String) :
    Indistinct base options name session session :=
  ⟨between, between, rfl, fun _ _ => rfl⟩

/-- A registration looks at the catalogue and at nothing else of the session. -/
theorem register_indistinct (catalogue : left.catalogue = right.catalogue)
    (method : Located Method) :
    ∃ messages, (left.register method).log = left.log ++ messages ∧
      (right.register method).log = right.log ++ messages ∧
      (left.register method).catalogue = (right.register method).catalogue := by
  unfold register registerMethod
  rw [catalogue]
  split
  · exact ⟨[], (List.append_nil _).symm, (List.append_nil _).symm, rfl⟩
  · exact ⟨_, rfl, rfl, catalogue⟩

theorem Indistinct.met (same : Indistinct base options name left right)
    (method : Located Method) :
    ∃ messages, (left.met method).log = left.log ++ messages ∧
      (right.met method).log = right.log ++ messages ∧
      (left.met method).catalogue = (right.met method).catalogue := by
  have rooms : left.room = right.room :=
    same.left_between.room.trans same.right_between.room.symm
  have modes : left.options = right.options :=
    same.left_between.options.trans same.right_between.options.symm
  have silent : ∃ messages, left.log = left.log ++ messages ∧
      right.log = right.log ++ messages ∧ left.catalogue = right.catalogue :=
    ⟨[], (List.append_nil _).symm, (List.append_nil _).symm, same.catalogue⟩
  unfold Session.met announce
  rw [rooms, modes]
  split
  · exact silent
  · split
    · exact silent
    · exact register_indistinct same.catalogue method

/-- The visit of a method gives the same messages at two such moments and leads to two more. -/
theorem Indistinct.visit (same : Indistinct base options name left right)
    (stored : base.InStore) (method : Located Method) :
    ∃ messages, (left.visitMethod method).log = left.log ++ messages ∧
      (right.visitMethod method).log = right.log ++ messages ∧
      Indistinct base options name (left.visitMethod method) (right.visitMethod method) := by
  obtain ⟨registered, leftMet, rightMet, catalogue⟩ := same.met method
  have leftLog := same.left_between.log_met stored method
  have rightLog := same.right_between.log_met stored method
  rw [leftMet, List.append_assoc] at leftLog
  rw [rightMet, ← catalogue, List.append_assoc] at rightLog
  refine ⟨_, leftLog, rightLog, ?_⟩
  constructor
  · exact same.left_between.visit method
  · exact same.right_between.visit method
  · rw [catalogue_met, catalogue_met, catalogue]
  · intro other apart
    rw [locals_visitMethod, locals_visitMethod, same.left_between.room, same.right_between.room,
      same.locals other apart]

theorem Indistinct.visits (same : Indistinct base options name left right)
    (stored : base.InStore) (methods : List (Located Method)) :
    ∃ messages, (methods.foldl visitMethod left).log = left.log ++ messages ∧
      (methods.foldl visitMethod right).log = right.log ++ messages ∧
      Indistinct base options name (methods.foldl visitMethod left)
        (methods.foldl visitMethod right) := by
  induction methods generalizing left right with
  | nil => exact ⟨[], (List.append_nil _).symm, (List.append_nil _).symm, same⟩
  | cons method rest induction =>
      obtain ⟨first, leftLog, rightLog, next⟩ := same.visit stored method
      obtain ⟨later, leftLater, rightLater, last⟩ := induction next
      rw [leftLog, List.append_assoc] at leftLater
      rw [rightLog, List.append_assoc] at rightLater
      exact ⟨first ++ later, leftLater, rightLater, last⟩

/-! ### The method with another body -/

/-- The catalogue and the message of a registration do not depend on the body. -/
theorem met_withBody (session : Session) (method : Located Method) (body : List (Located Stmt)) :
    session.met (method.withBody body) = session.met method := rfl

theorem Between.withBody (between : session.Between base options) (method : Located Method)
    (body : List (Located Stmt)) :
    Indistinct base options method.data.name (session.visitMethod method)
      (session.visitMethod (method.withBody body)) where
  left_between := between.visit method
  right_between := between.visit (method.withBody body)
  catalogue := by rw [catalogue_met, catalogue_met, met_withBody]
  locals := by
    intro other apart
    have own : method.data.name ≠ other := Ne.symm apart
    have replaced : (method.withBody body).data.name ≠ other := own
    rw [locals_visitMethod, locals_visitMethod, if_neg own, if_neg replaced]

/-- A first pass does not look at bodies. -/
theorem prepare_withBody (session : Session) {program other : Program}
    {front rest : List (Located Method)} {method : Located Method} {body : List (Located Stmt)}
    (split : program.methods = front ++ method :: rest)
    (changed : other.methods = front ++ method.withBody body :: rest) :
    session.prepare other = session.prepare program := by
  have registered : ∀ session : Session,
      session.register (method.withBody body) = session.register method := fun _ => rfl
  simp only [prepare, split, changed, List.foldl_append, List.foldl_cons, registered]

theorem between_upTo (base : Symbols) (options : Options) (program : Program)
    (front : List (Located Method)) :
    ((start base options).upTo program front).Between base options :=
  (between_prepare base options program).visits front

end Session

/-- Another body for one method changes what the visit of that method records, and the locals under
its name, and nothing else of the log, of the catalogue and of the locals. -/
theorem bodies_isolated {symbols : Symbols} (reachable : symbols.Reachable) (options : Options)
    {program other : Program} {front rest : List (Located Method)} {method : Located Method}
    {body : List (Located Stmt)} (split : program.methods = front ++ method :: rest)
    (changed : other.methods = front ++ method.withBody body :: rest) :
    ∃ before own replaced after,
      (Session.start symbols options).Records program front method own ∧
      (Session.start symbols options).Records other front (method.withBody body) replaced ∧
      ((Session.start symbols options).analyse program).log = before ++ own ++ after ∧
      ((Session.start symbols options).analyse other).log = before ++ replaced ++ after ∧
      ((Session.start symbols options).analyse program).catalogue =
        ((Session.start symbols options).analyse other).catalogue ∧
      ∀ name, name ≠ method.data.name →
        ((Session.start symbols options).analyse program).locals.find? name =
          ((Session.start symbols options).analyse other).locals.find? name := by
  have stored := reachable.in_store
  have between := Session.between_upTo symbols options program front
  have same : (Session.start symbols options).upTo other front =
      (Session.start symbols options).upTo program front := by
    rw [Session.upTo, Session.upTo, Session.prepare_withBody _ split changed]
  obtain ⟨own, ownLog, -, -⟩ := (Session.indistinct_refl between "").visit stored method
  obtain ⟨replaced, replacedLog, -, -⟩ :=
    (Session.indistinct_refl between "").visit stored (method.withBody body)
  have changedBody := between.withBody method body
  obtain ⟨after, leftLog, rightLog, last⟩ := changedBody.visits stored rest
  have whole : (Session.start symbols options).analyse program = rest.foldl Session.visitMethod
      (((Session.start symbols options).upTo program front).visitMethod method) := by
    rw [Session.analyse_eq, split, List.foldl_append, List.foldl_cons]
    rfl
  have wholeOther : (Session.start symbols options).analyse other =
      rest.foldl Session.visitMethod (((Session.start symbols options).upTo program
        front).visitMethod (method.withBody body)) := by
    rw [← same, Session.analyse_eq, changed, List.foldl_append, List.foldl_cons]
    rfl
  rw [whole, wholeOther]
  refine ⟨((Session.start symbols options).upTo program front).log, own, replaced, after,
    ?_, ?_, ?_, ?_, last.catalogue, last.locals⟩
  · rw [Session.Records, Session.upTo_concat, ownLog]
  · rw [Session.Records, Session.upTo_concat, same, replacedLog]
  · rw [leftLog, ownLog]
  · rw [rightLog, replacedLog]

def tell (line : UInt64) (body : List (Located Stmt)) : Located Method :=
  .place line 1 { returnTy := "void", name := "tell", params := [], body }

/-- It assigns to a name that it does not declare. -/
def listen : Located Method :=
  .place 8 1
    { returnTy := "void", name := "listen", params := [],
      body := [.place 9 5 (.assign "told" (.place 9 12 (.literal "int" "1"))),
        .place 10 5 (.expression (.place 10 5 (.call "tell" [])))] }

/-- Two methods of one name, the second with the given body. -/
def gossip (body : List (Located Stmt)) : Program :=
  ⟨[.place 1 1 ⟨"Sample", "",
    [tell 2 [], tell 3 body, listen].map fun method => ⟨method.pos, .method method.data⟩⟩]⟩

/-- A local with the name to which the last method assigns. -/
def told : List (Located Stmt) :=
  [.place 4 5 (.declare "int" "told" false none),
    .place 5 5 (.assign "told" (.place 5 12 (.literal "boolean" "true")))]

/-- The name in a scope inside, and outside of it once more. -/
def retold : List (Located Stmt) :=
  [.place 4 5 (.block [.place 5 7 (.declare "String" "told" false none)]),
    .place 6 5 (.returning (some (.place 6 12 (.identifier "told"))))]

theorem retold_isolated :
    ∃ before own replaced after,
      ((Session.start .empty {}).analyse (gossip told)).log = before ++ own ++ after ∧
      ((Session.start .empty {}).analyse (gossip retold)).log = before ++ replaced ++ after ∧
      own = [.error (some 3) (.duplicateMethod "tell" 2),
        .error (some 5) (.assignmentMismatch "told" (.primitive .boolean) (.primitive .int))] ∧
      replaced = [.error (some 3) (.duplicateMethod "tell" 2),
        .error (some 6) (.voidReturnsValue "tell")] ∧
      ((Session.start .empty {}).analyse (gossip told)).log =
        own ++ [.error (some 9) (.undeclaredVariable "told")] := by
  have split : (gossip told).methods = [tell 2 []] ++ tell 3 told :: [listen] := rfl
  have changed : (gossip retold).methods =
      [tell 2 []] ++ (tell 3 told).withBody retold :: [listen] := rfl
  obtain ⟨before, own, replaced, after, records, recordsOther, log, logOther, -⟩ :=
    bodies_isolated .empty {} split changed
  have ownIs : own = [.error (some 3) (.duplicateMethod "tell" 2),
      .error (some 5) (.assignmentMismatch "told" (.primitive .boolean) (.primitive .int))] :=
    List.append_cancel_left (records.symm.trans (by decide))
  have replacedIs : replaced = [.error (some 3) (.duplicateMethod "tell" 2),
      .error (some 6) (.voidReturnsValue "tell")] :=
    List.append_cancel_left (recordsOther.symm.trans (by decide))
  exact ⟨before, own, replaced, after, log, logOther, ownIs, replacedIs, by rw [ownIs]; decide⟩

end Sema
