import RegisterMap.Proofs.Procedure.Reading

/-!
# Procedures in their frame

A procedure is framed if what it does in a context is what it does in an empty one: it ends in the
same way, the scopes that were open before are open again, and the diagnostics that it adds are those
of the empty context with the breadcrumbs of these scopes in front. The steps of procedures are
framed, and framed procedures compose, in scopes, after each other and around tables that are
refused.
-/

namespace RegisterMap

/-! ### Diagnostics and contexts within others -/

/-- The diagnostic with the breadcrumbs of a path before its own. -/
def Diagnostic.below (path : Path) (d : Diagnostic) : Diagnostic := { d with path := path ++ d.path }

namespace Diagnostic

variable (p q : Path) (table : TableKind) (key message : String)

@[simp] lemma below_nil : below [] = id := rfl

@[simp] lemma below_below (d : Diagnostic) : (d.below q).below p = d.below (p ++ q) := by
  simp [below]

@[simp] lemma below_missingKey : (missingKey table q key).below p = missingKey table (p ++ q) key := rfl

@[simp] lemma below_unknownKey : (unknownKey table q key).below p = unknownKey table (p ++ q) key := rfl

@[simp] lemma below_invalidValue :
    (invalidValue table q key message).below p = invalidValue table (p ++ q) key message := rfl

@[simp] lemma below_constraint :
    (constraint table q message).below p = constraint table (p ++ q) message := rfl

end Diagnostic

namespace Context

/-- A context after what has been recorded in another one that started empty. -/
def resume (c inner : Context) : Context := c.record (inner.diagnostics.map (.below c.path))

variable (c inner : Context)

@[simp] lemma path_empty : empty.path = [] := rfl

@[simp] lemma diagnostics_record (ds : List Diagnostic) :
    (c.record ds).diagnostics = c.diagnostics ++ ds := rfl

@[simp] lemma diagnostics_empty : empty.diagnostics = [] := rfl

@[simp] lemma path_resume : (c.resume inner).path = c.path := rfl

@[simp] lemma resume_empty : c.resume empty = c := by simp [resume, empty]

/-- What is resumed twice is resumed at once. -/
lemma resume_resume {inner : Context} (h : inner.path = []) (last : Context) :
    (c.resume inner).resume last = c.resume (inner.resume last) := by
  simp [resume, h]

/-- A scope that is closed again leaves its breadcrumb in front of what was recorded in it. -/
lemma leave_resume_enter (crumb : Option String) :
    ((c.enter crumb).resume inner).leave = c.resume ((empty.enter crumb).resume inner).leave := by
  have hpath : (empty.enter crumb).path = Path.enter [] crumb := path_enter _ _
  rw [resume, resume, resume, leave_record, leave_record, leave_enter, leave_enter, path_enter, hpath]
  simp [record, empty, Path.enter]

end Context

/-- States that have a context, which can be exchanged. -/
class HasContext (σ : Type) where
  context : σ → Context
  withContext : σ → Context → σ
  context_withContext : ∀ s c, context (withContext s c) = c
  withContext_withContext : ∀ s c c', withContext (withContext s c) c' = withContext s c'
  withContext_context : ∀ s, withContext s (context s) = s

instance : HasContext Context := ⟨id, fun _ c => c, fun _ _ => rfl, fun _ _ _ => rfl, fun _ => rfl⟩

instance : HasContext Inspection :=
  ⟨Inspection.context, fun i c => { i with context := c }, fun _ _ => rfl, fun _ _ _ => rfl,
    fun _ => rfl⟩

namespace HasContext

variable {σ : Type} [HasContext σ]

/-- A state with an empty context. -/
def alone (s : σ) : σ := withContext s .empty

/-- A state after what has happened to it alone. -/
def resume (s inner : σ) : σ := withContext inner ((context s).resume (context inner))

@[simp] lemma context_alone (s : σ) : context (alone s) = .empty := context_withContext _ _

@[simp] lemma context_resume (s inner : σ) :
    context (resume s inner) = (context s).resume (context inner) := context_withContext _ _

@[simp] lemma alone_alone (s : σ) : alone (alone s) = alone s := withContext_withContext _ _ _

@[simp] lemma alone_resume (s inner : σ) : alone (resume s inner) = alone inner :=
  withContext_withContext _ _ _

@[simp] lemma resume_alone (s : σ) : resume s (alone s) = s := by
  rw [resume, context_alone, Context.resume_empty, alone, withContext_withContext,
    withContext_context]

lemma resume_resume (s : σ) {inner : σ} (h : (context inner).path = []) (last : σ) :
    resume (resume s inner) last = resume s (resume inner last) := by
  rw [resume, context_resume, Context.resume_resume _ h, resume, context_resume, resume,
    withContext_withContext]

@[simp] lemma alone_context (c : Context) : alone c = .empty := rfl

@[simp] lemma resume_context (c inner : Context) : resume c inner = c.resume inner := rfl

end HasContext

namespace Procedure

open HasContext

variable {σ α β ε : Type} [HasContext σ]

/-- A procedure that does the same in every context: it ends as it does in an empty context, leaves
the open scopes as they were, and adds the diagnostics of the empty context below these scopes. -/
def Framed (p : Procedure σ α) : Prop :=
  ∀ s, p.run s = mapState (resume s) (p.run (alone s))

lemma framed_iff {p : Procedure Context α} :
    Framed p ↔ ∀ c, p.run c =
      mapState (fun inner => c.record (inner.diagnostics.map (.below c.path))) (p.run .empty) :=
  Iff.rfl

omit [HasContext σ] in
lemma mapState_mapState {τ υ : Type} (f : σ → τ) (g : τ → υ) (r : EStateM.Result Stop σ α) :
    mapState g (mapState f r) = mapState (fun s => g (f s)) r := by
  cases r <;> rfl

/-! ### Steps -/

lemma framed_pure (a : α) : Framed (pure a : Procedure σ α) := by
  intro s
  simp [EStateM.run_pure]

lemma framed_throw (stop : Stop) : Framed (throw stop : Procedure σ α) := by
  intro s
  change EStateM.Result.error stop s = .error stop (resume s (alone s))
  rw [resume_alone]

lemma framed_granted (o : Option α) : Framed (granted o : Procedure σ α) := by
  cases o with
  | none => exact framed_throw _
  | some a => exact framed_pure a

lemma framed_item (items : List α) (position : Nat) : Framed (item items position : Procedure σ α) := by
  unfold item
  cases items[position]? with
  | none => exact framed_throw _
  | some a => exact framed_pure a

lemma framed_usable (message : ε → String) (result : Except ε α) :
    Framed (usable message result : Procedure σ α) := by
  cases result with
  | error e => exact framed_throw _
  | ok a => exact framed_pure a

/-- A change of the state that only adds diagnostics to its context. -/
lemma framed_modify {f : σ → σ} (h : ∀ s, f s = resume s (f (alone s))) :
    Framed (modify f : Procedure σ Unit) := by
  intro s
  change EStateM.Result.ok () (f s) = .ok () (resume s (f (alone s)))
  rw [← h s]

/-- What comes next may look at the state as long as it does not look at its context. -/
lemma framed_get_bind {f : σ → Procedure σ α} (halone : ∀ s, f (alone s) = f s)
    (hf : ∀ s, Framed (f s)) : Framed (get >>= f) := by
  intro s
  calc (get >>= f).run s = (f s).run s := rfl
    _ = mapState (resume s) ((f s).run (alone s)) := hf s s
    _ = mapState (resume s) ((f (alone s)).run (alone s)) := by rw [halone]
    _ = mapState (resume s) ((get >>= f).run (alone s)) := rfl

/-! ### Steps after each other -/

/-- The scopes that are open at the end of a framed procedure are none if there were none. -/
lemma Framed.path_eq_nil {p : Procedure σ α} (hp : Framed p) (s : σ) :
    (∀ a inner, p.run (alone s) = .ok a inner → (context inner).path = []) ∧
      ∀ stop inner, p.run (alone s) = .error stop inner → (context inner).path = [] := by
  have halone := hp (alone s)
  rw [alone_alone] at halone
  constructor
  · intro a inner h
    rw [h, mapState_ok] at halone
    obtain ⟨_, hinner⟩ := EStateM.Result.ok.inj halone
    rw [hinner, context_resume, context_alone, Context.path_resume, Context.path_empty]
  · intro stop inner h
    rw [h, mapState_error] at halone
    obtain ⟨_, hinner⟩ := EStateM.Result.error.inj halone
    rw [hinner, context_resume, context_alone, Context.path_resume, Context.path_empty]

/-- A framed procedure goes on from where another one has ended. -/
lemma Framed.run_resume {p : Procedure σ α} (hp : Framed p) (s : σ) {inner : σ}
    (h : (context inner).path = []) :
    p.run (resume s inner) = mapState (resume s) (p.run inner) := by
  have hresume : resume (resume s inner) = fun last => resume s (resume inner last) :=
    funext (resume_resume s h)
  rw [hp (resume s inner), hp inner, alone_resume, mapState_mapState, hresume]

lemma Framed.bind {p : Procedure σ α} {f : α → Procedure σ β} (hp : Framed p)
    (hf : ∀ a, Framed (f a)) : Framed (p >>= f) := by
  intro s
  rw [EStateM.run_bind, EStateM.run_bind, hp s]
  cases h : p.run (alone s) with
  | ok a inner => exact (hf a).run_resume s ((hp.path_eq_nil s).1 a inner h)
  | error stop inner => rfl

lemma Framed.map {p : Procedure σ α} (hp : Framed p) (f : α → β) : Framed (f <$> p) := by
  rw [map_eq_pure_bind]
  exact hp.bind fun a => framed_pure (f a)

lemma Framed.andThen {p : Procedure σ (Option α)} {next : α → Procedure σ (Option β)}
    (hp : Framed p) (hnext : ∀ a, Framed (next a)) : Framed (Procedure.andThen p next) := by
  refine hp.bind fun o => ?_
  cases o with
  | none => exact framed_pure none
  | some a => exact hnext a

/-! ### Going on after a stop -/

lemma Framed.orElseUsable {p : Procedure σ α} {other : String → Procedure σ α} (hp : Framed p)
    (hother : ∀ message, Framed (other message)) : Framed (Procedure.orElseUsable p other) := by
  intro s
  simp only [run_orElseUsable]
  rw [hp s]
  cases h : p.run (alone s) with
  | ok a inner => rfl
  | error stop inner =>
    cases stop with
    | unusable message =>
      exact (hother message).run_resume s ((hp.path_eq_nil s).2 _ inner h)
    | _ => rfl

lemma Framed.unlessRefused {p : Procedure σ α} (hp : Framed p) :
    Framed (Procedure.unlessRefused p) := by
  intro s
  simp only [run_unlessRefused]
  rw [hp s]
  cases p.run (alone s) with
  | ok a inner => rfl
  | error stop inner => cases stop <;> rfl

/-! ### Contexts -/

lemma framed_recordInvalid (table : TableKind) (key message : String) :
    Framed (recordInvalid table key message) := by
  apply framed_modify
  intro c
  simp [Context.resume]

lemma framed_recordConstraint (table : TableKind) (message : String) :
    Framed (recordConstraint table message) := by
  apply framed_modify
  intro c
  simp [Context.resume]

/-- However a framed procedure ends, the scope that it runs in is left again. -/
lemma Framed.within {p : Procedure Context α} (hp : Framed p) (crumb : Option String) :
    Framed (Procedure.within crumb p) := by
  intro c
  rw [run_within, run_within, hp (c.enter crumb), hp ((alone c).enter crumb)]
  simp only [mapState_mapState, alone_context, resume_context, Context.leave_resume_enter c]

/-! ### Inspections -/

section Inspections

@[simp] lemma alone_inspection (i : Inspection) : alone i = { i with context := .empty } := rfl

@[simp] lemma resume_inspection (i inner : Inspection) :
    resume i inner = { inner with context := i.context.resume inner.context } := rfl

variable {p : Procedure Inspection α}

/-- An inspection sees its table from an empty context on. -/
lemma Framed.inspect (hp : Framed p) (t : Table) (kind : TableKind) :
    Framed (Procedure.inspect t kind p) := by
  intro c
  rw [run_inspect, run_inspect, hp ⟨t, kind, c, false⟩, mapState_mapState, mapState_mapState]
  rfl

lemma Framed.aside {p : Procedure Context α} (hp : Framed p) : Framed (Procedure.aside p) := by
  intro i
  rw [run_aside, run_aside, hp i.context, mapState_mapState, mapState_mapState]
  rfl

lemma Framed.inside (hp : Framed p) (crumb : Option String) : Framed (Procedure.inside crumb p) := by
  have hleave (i inner : Inspection) :
      (resume (i.enter crumb) inner).leave = resume i (resume ((alone i).enter crumb) inner).leave := by
    have hcontext := Context.leave_resume_enter i.context inner.context crumb
    exact congrArg (fun c => { inner with context := c }) hcontext
  intro i
  rw [run_inside, run_inside, hp (i.enter crumb), hp ((alone i).enter crumb)]
  simp only [mapState_mapState, hleave i]
  rfl

lemma framed_refuseFailed : Framed refuseFailed := by
  refine framed_get_bind (fun _ => rfl) fun i => ?_
  split_ifs
  · exact framed_throw _
  · exact framed_pure ()

/-- A step of an inspection that only records what it would record in an empty context, below the
scopes that are open. -/
lemma framed_note {ds : Inspection → List Diagnostic}
    (h : ∀ i, ds i = (ds (alone i)).map (.below i.context.path)) :
    Framed (modify fun i : Inspection => i.note (ds i)) := by
  apply framed_modify
  intro i
  rw [h i]
  rfl

/-- A step of an inspection that also makes the table fail if it records anything. -/
lemma framed_failWith {ds : Inspection → List Diagnostic}
    (h : ∀ i, ds i = (ds (alone i)).map (.below i.context.path)) :
    Framed (modify fun i : Inspection => i.failWith (ds i)) := by
  apply framed_modify
  intro i
  rw [Inspection.failWith, h i, List.isEmpty_map]
  rfl

lemma framed_checkUnknownKeys (allowed : List String) : Framed (checkUnknownKeys allowed) := by
  apply framed_note
  intro i
  simp [Table.unknownKeyProblems]

lemma framed_missingKey (key : String) : Framed (modify fun i : Inspection => i.missingKey key) :=
  framed_failWith fun i => by simp

lemma framed_invalidValue (key message : String) :
    Framed (modify fun i : Inspection => i.invalidValue key message) :=
  framed_failWith fun i => by simp

lemma framed_invalid (key : String) (fault : Fault) :
    Framed (invalid key fault : Procedure Inspection (Option α)) :=
  (framed_invalidValue key fault.message).bind fun _ => framed_pure none

lemma framed_modify_reject (message : String) :
    Framed (modify fun i : Inspection => i.reject message) := by
  apply framed_modify
  intro i
  simp [Inspection.reject, Inspection.constraint, Inspection.note, Inspection.fail, Context.resume]

lemma framed_reject (message : String) : Framed (reject message : Procedure Inspection α) :=
  (framed_modify_reject message).bind fun _ =>
    framed_get_bind (fun _ => rfl) fun _ => framed_throw _

/-- Whether a key is missing can be told from the table alone. -/
lemma framed_require (key : String) (isPresent : Bool) :
    Framed (modify fun i : Inspection => i.require key isPresent) := by
  apply framed_modify
  intro i
  simp only [Inspection.require]
  split_ifs <;> simp_all [Inspection.missingKey, Inspection.failWith, Context.resume]

end Inspections

end Procedure

end RegisterMap
