import RegisterMap.Procedure.Reading
import RegisterMap.Proofs.Reading

/-!
# What reading a key changes

Every step of an inspection records some diagnostics and may make the table fail. Reading a key step
by step returns the value of the key's reading, records the problems of this reading, and makes the
table fail exactly if nothing can be made of it. It never stops.
-/

namespace RegisterMap

variable {α β ε σ : Type}

/-! ### Contexts and inspections -/

namespace Context

@[simp] lemma path_record (c : Context) (ds : List Diagnostic) : (c.record ds).path = c.path := rfl

@[simp] lemma record_nil (c : Context) : c.record [] = c := by simp [record]

@[simp] lemma record_record (c : Context) (ds es : List Diagnostic) :
    (c.record ds).record es = c.record (ds ++ es) := by simp [record]

lemma leave_record (c : Context) (ds : List Diagnostic) : (c.record ds).leave = c.leave.record ds :=
  rfl

end Context

namespace Inspection

/-- An inspection after some diagnostics, which may have made the table fail. -/
def after (i : Inspection) (ds : List Diagnostic) (fails : Bool) : Inspection :=
  { i with context := i.context.record ds, hasFailed := i.hasFailed || fails }

variable (i : Inspection) (ds es : List Diagnostic) (fails : Bool) (crumb : Option String)

@[simp] lemma table_after : (i.after ds fails).table = i.table := rfl

@[simp] lemma kind_after : (i.after ds fails).kind = i.kind := rfl

@[simp] lemma context_after : (i.after ds fails).context = i.context.record ds := rfl

@[simp] lemma hasFailed_after : (i.after ds fails).hasFailed = (i.hasFailed || fails) := rfl

@[simp] lemma after_nil_false : i.after [] false = i := by simp [after]

@[simp] lemma after_after (fails' : Bool) :
    (i.after ds fails).after es fails' = i.after (ds ++ es) (fails || fails') := by
  simp [after, Bool.or_assoc]

@[simp] lemma table_enter : (i.enter crumb).table = i.table := rfl

@[simp] lemma kind_enter : (i.enter crumb).kind = i.kind := rfl

@[simp] lemma hasFailed_enter : (i.enter crumb).hasFailed = i.hasFailed := rfl

@[simp] lemma path_enter : (i.enter crumb).context.path = i.context.path.enter crumb :=
  Context.path_enter _ _

lemma enter_after : (i.after ds fails).enter crumb = (i.enter crumb).after ds fails := rfl

@[simp] lemma leave_enter_after : ((i.enter crumb).after ds fails).leave = i.after ds fails := by
  simp [leave, enter, after, Context.leave_record, Context.leave_enter]

lemma failWith_eq_after : i.failWith ds = i.after ds (!ds.isEmpty) := rfl

lemma checkUnknownKeys_eq_after (allowed : List String) :
    i.checkUnknownKeys allowed =
      i.after (i.table.unknownKeyProblems i.kind i.context.path allowed) false := by
  simp [checkUnknownKeys, note, after]

end Inspection

/-- What is made of a key that may be absent is its value. -/
lemma Reading.value?_eq_of_optional? {r : Reading α} {o : Option α} (h : r.optional? = some o) :
    r.value? = o := by
  cases r <;> simp_all [optional?, value?]

namespace Procedure

/-! ### Stopping and going on -/

@[simp] lemma granted_some (a : α) : (granted (some a) : Procedure σ α) = pure a := rfl

@[simp] lemma run_recordConstraint (table : TableKind) (message : String) (c : Context) :
    (recordConstraint table message).run c =
      .ok () (c.record [.constraint table c.path message]) := rfl

@[simp] lemma run_recordInvalid (table : TableKind) (key message : String) (c : Context) :
    (recordInvalid table key message).run c =
      .ok () (c.record [.invalidValue table c.path key message]) := rfl

/-- The end of a procedure with its state changed. -/
def mapState {τ : Type} (f : σ → τ) : EStateM.Result Stop σ α → EStateM.Result Stop τ α
  | .ok a s => .ok a (f s)
  | .error stop s => .error stop (f s)

@[simp] lemma mapState_ok {τ : Type} (f : σ → τ) (a : α) (s : σ) :
    mapState f (.ok a s) = .ok a (f s) := rfl

@[simp] lemma mapState_error {τ : Type} (f : σ → τ) (stop : Stop) (s : σ) :
    mapState f (.error stop s : EStateM.Result Stop σ α) = .error stop (f s) := rfl

lemma run_aside (p : Procedure Context α) (i : Inspection) :
    (aside p).run i = mapState (fun c => { i with context := c }) (p.run i.context) := by
  simp only [EStateM.run, aside]
  cases p i.context <;> rfl

lemma run_inspect (t : Table) (kind : TableKind) (p : Procedure Inspection α) (c : Context) :
    (inspect t kind p).run c = mapState Inspection.context (p.run ⟨t, kind, c, false⟩) := by
  simp only [EStateM.run, inspect]
  cases p ⟨t, kind, c, false⟩ <;> rfl

/-- What a procedure records is recorded while the table is left aside. -/
lemma run_aside_record {p : Procedure Context α} {a : α} {ds : List Diagnostic} {i : Inspection}
    (h : p.run i.context = .ok a (i.context.record ds)) :
    (aside p).run i = .ok a (i.after ds false) := by
  rw [run_aside, h, mapState_ok]
  simp [Inspection.after]

lemma run_tryFinally (p : Procedure σ α) (f : σ → σ) (s : σ) :
    (tryFinally p (modify f)).run s = mapState f (p.run s) := by
  simp only [EStateM.run, tryFinally, tryFinally', Functor.map, EStateM.map]
  cases p s <;> rfl

lemma run_inside (crumb : Option String) (p : Procedure Inspection α) (i : Inspection) :
    (inside crumb p).run i = mapState Inspection.leave (p.run (i.enter crumb)) := by
  simp only [inside, EStateM.run_bind, EStateM.run_modify, run_tryFinally]

lemma run_within (crumb : Option String) (p : Procedure Context α) (c : Context) :
    (within crumb p).run c = mapState Context.leave (p.run (c.enter crumb)) := by
  simp only [within, EStateM.run_bind, EStateM.run_modify, run_tryFinally]

lemma run_orElseUsable (p : Procedure σ α) (other : String → Procedure σ α) (s : σ) :
    (orElseUsable p other).run s = match p.run s with
      | .ok a s => .ok a s
      | .error (.unusable message) s => (other message).run s
      | .error stop s => .error stop s := by
  simp only [EStateM.run, orElseUsable, tryCatch, tryCatchThe, MonadExceptOf.tryCatch,
    EStateM.tryCatch]
  cases p s with
  | ok a s => rfl
  | error stop s => cases stop <;> rfl

/-- A value that cannot be used is made up for. -/
lemma run_orElseUsable_usable (message : ε → String) (result : Except ε α)
    (other : String → Procedure σ (Option α)) (s : σ) :
    (orElseUsable (some <$> usable message result) other).run s = match result with
      | .ok a => .ok (some a) s
      | .error e => (other (message e)).run s := by
  rw [run_orElseUsable]
  cases result <;> rfl

lemma run_unlessRefused (p : Procedure σ α) (s : σ) :
    (unlessRefused p).run s = match p.run s with
      | .ok a s => .ok (some a) s
      | .error (.refused _) s => .ok none s
      | .error stop s => .error stop s := by
  simp only [EStateM.run, unlessRefused, tryCatch, tryCatchThe, MonadExceptOf.tryCatch,
    EStateM.tryCatch, Functor.map, EStateM.map]
  cases p s with
  | ok a s => rfl
  | error stop s => cases stop <;> rfl

@[simp] lemma run_refuseFailed (i : Inspection) :
    refuseFailed.run i = if i.hasFailed then .error (.refused i.kind) i else .ok () i := by
  simp only [refuseFailed, EStateM.run_bind, EStateM.run_get]
  split_ifs <;> rfl

lemma run_checkUnknownKeys (allowed : List String) (i : Inspection) :
    (checkUnknownKeys allowed).run i =
      .ok () (i.after (i.table.unknownKeyProblems i.kind i.context.path allowed) false) := by
  rw [← Inspection.checkUnknownKeys_eq_after]
  rfl

/-! ### Reading a key -/

/-- A way of reading a key step by step that comes to the same as a reading. -/
structure Reads (read : String → Procedure Inspection (Option α))
    (reading : Table → String → Reading α) : Prop where
  run_eq : ∀ key i, (read key).run i = .ok (reading i.table key).value?
    (i.after ((reading i.table key).problems i.kind i.context.path key)
      (reading i.table key).optional?.isNone)
  absent_iff : ∀ t key, reading t key = .absent ↔ t.get? key = none

lemma run_invalid (key : String) (fault : Fault) (i : Inspection) :
    (invalid key fault : Procedure Inspection (Option α)).run i = .ok none
      (i.after ((Reading.invalid (α := α) fault).problems i.kind i.context.path key) true) := rfl

/-- A key is required once it has been read. -/
lemma Reads.run_required {read : String → Procedure Inspection (Option α)}
    {reading : Table → String → Reading α} (h : Reads read reading) (key : String)
    (i : Inspection) :
    (required key read).run i = .ok (reading i.table key).value?
      (i.after ((reading i.table key).requiredProblems i.kind i.context.path key)
        (reading i.table key).value?.isNone) := by
  have habsent := h.absent_iff i.table key
  simp only [required, EStateM.run_bind, h.run_eq, EStateM.run_modify, EStateM.run_pure]
  cases hr : reading i.table key with
  | absent =>
    have hkey : i.table.has key = false := Table.has_eq_false_iff.mpr (habsent.mp hr)
    simp [Reading.value?, Reading.problems, Reading.optional?, Reading.requiredProblems,
      Inspection.require, hkey, Inspection.missingKey, Inspection.failWith_eq_after]
  | invalid fault =>
    have hkey : i.table.has key = true := by
      rw [← Bool.not_eq_false, Table.has_eq_false_iff, ← habsent, hr]
      simp
    simp [Reading.value?, Reading.problems, Reading.optional?, Reading.requiredProblems,
      Inspection.require, hkey]
  | valid a =>
    simp [Reading.value?, Reading.problems, Reading.optional?, Reading.requiredProblems,
      Inspection.require]

/-! ### Values by type -/

@[simp] lemma run_value (key : String) (i : Inspection) :
    (value key).run i = .ok (i.table.get? key) i := rfl

lemma reads_value : Reads value Table.value := by
  refine ⟨fun key i => ?_, fun t key => Table.value_eq_absent_iff⟩
  rw [run_value]
  unfold Table.value
  cases i.table.get? key <;> simp [Reading.value?, Reading.problems, Reading.optional?]

/-- A way of reading that goes on from another one. -/
lemma Reads.andThen {read : String → Procedure Inspection (Option α)}
    {reading : Table → String → Reading α} (h : Reads read reading)
    {next : String → α → Procedure Inspection (Option β)} {f : α → Reading β}
    (hnext : ∀ key a i, (next key a).run i = .ok (f a).value?
      (i.after ((f a).problems i.kind i.context.path key) (f a).optional?.isNone))
    (hf : ∀ a, f a ≠ .absent) :
    Reads (fun key => Procedure.andThen (read key) (next key)) (fun t key => (reading t key).bind f) := by
  refine ⟨fun key i => ?_, fun t key => ?_⟩
  · unfold Procedure.andThen
    simp only [EStateM.run_bind, h.run_eq]
    cases hr : reading i.table key with
    | absent => simp [Reading.bind, Reading.value?, Reading.problems, Reading.optional?]
    | invalid fault => simp [Reading.bind, Reading.value?, Reading.problems, Reading.optional?]
    | valid a => simp [Reading.bind, Reading.value?, Reading.problems, Reading.optional?, hnext]
  · rw [Reading.bind_eq_absent_iff hf, h.absent_iff]

lemma reads_typed (wanted : String) (take : Value → Option α) :
    Reads (typed · wanted take) (Table.typed · · wanted take) := by
  refine reads_value.andThen (fun key v i => ?_) fun v => ?_
  · cases take v with
    | none => exact run_invalid key _ i
    | some a => simp [Reading.value?, Reading.problems, Reading.optional?]
  · cases take v <;> simp

lemma reads_text : Reads text Table.text := reads_typed _ _

lemma reads_boolean : Reads boolean Table.boolean := reads_typed _ _

lemma reads_integer : Reads integer Table.integer := reads_typed _ _

lemma reads_table : Reads table Table.table := reads_typed _ _

lemma reads_array : Reads array Table.array := reads_typed _ _

/-! ### Values by content -/

/-- The items of an array are gone through up to the first that is no table. -/
lemma run_tablesOfItems (key : String) (items : List Value) (i : Inspection) :
    (tablesOfItems key items).run i = match Table.tablesOfItems items with
      | .ok ts => .ok (some ts) i
      | .error item => (invalid key (.unexpected "an array of tables" item)).run i := by
  induction items with
  | nil => rfl
  | cons item items ih =>
    cases item with
    | table entries =>
      simp only [tablesOfItems, Table.tablesOfItems, EStateM.run_bind, ih]
      cases Table.tablesOfItems items <;> rfl
    | _ => rfl

lemma reads_tables : Reads tables Table.tables := by
  refine reads_array.andThen (fun key items i => ?_) fun items => ?_
  · rw [run_tablesOfItems]
    cases Table.tablesOfItems items with
    | ok ts => simp [Reading.value?, Reading.problems, Reading.optional?]
    | error item => exact run_invalid key _ i
  · cases Table.tablesOfItems items <;> simp

lemma reads_unsigned (maximum : Int) :
    Reads (unsigned · maximum) (Table.unsigned · · maximum) := by
  refine reads_integer.andThen (fun key n i => ?_) fun n => ?_
  · split_ifs
    · exact run_invalid key _ i
    · exact run_invalid key _ i
    · simp [Reading.value?, Reading.problems, Reading.optional?]
  · split_ifs <;> simp

lemma reads_name : Reads name Table.name := by
  refine reads_text.andThen (fun key s i => ?_) fun s => ?_
  · split_ifs
    · simp [Reading.value?, Reading.problems, Reading.optional?]
    · exact run_invalid key _ i
  · split_ifs <;> simp

/-- The error of a conversion becomes a diagnostic. -/
lemma run_conversion (key : String) (result : Except ConversionError α) (i : Inspection) :
    (conversion key result).run i = match result with
      | .ok a => .ok (some a) i
      | .error e => (invalid key (.conversion e)).run i := by
  rw [conversion, run_orElseUsable_usable]
  cases result <;> rfl

/-- A conversion goes on from a reading. -/
lemma Reads.convert {read : String → Procedure Inspection (Option α)}
    {reading : Table → String → Reading α} (h : Reads read reading)
    (f : α → Except ConversionError β) :
    Reads (fun key => Procedure.andThen (read key) fun a => conversion key (f a))
      (fun t key => (reading t key).convert f) := by
  refine h.andThen (fun key a i => ?_) fun a => ?_
  · rw [run_conversion]
    cases f a with
    | ok b => simp [Reading.value?, Reading.problems, Reading.optional?]
    | error e => exact run_invalid key _ i
  · cases f a <;> simp

lemma reads_converted (f : Value → Except ConversionError α) :
    Reads (converted · f) (Table.converted · · f) := reads_value.convert f

lemma reads_convertedText (f : String → Except ConversionError α) :
    Reads (convertedText · f) (Table.convertedText · · f) := reads_text.convert f

end Procedure

end RegisterMap
