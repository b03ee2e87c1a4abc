import RegisterMap.Proofs.Procedure.Document
import RegisterMap.Proofs.Procedure.Frame.Rules

/-!
# Checks in their frame

Every check of the parts of a document is framed: it neither sees what has been recorded before nor
in which scopes, whatever it is given. So the items of an array of registers are checked as if each
was alone.
-/

namespace RegisterMap.Procedure

open HasContext

variable {α : Type}

/-! ### Keys -/

lemma framed_value (key : String) : Framed (value key) :=
  framed_get_bind (fun _ => rfl) fun _ => framed_pure _

lemma framed_typed (key wanted : String) (take : Value → Option α) : Framed (typed key wanted take) := by
  refine (framed_value key).andThen fun v => ?_
  cases take v with
  | some a => exact framed_pure _
  | none => exact framed_invalid _ _

lemma framed_text (key : String) : Framed (text key) := framed_typed _ _ _

lemma framed_tablesOfItems (key : String) (items : List Value) : Framed (tablesOfItems key items) := by
  induction items with
  | nil => exact framed_pure _
  | cons item items ih =>
    cases item with
    | table entries => exact ih.bind fun _ => framed_pure _
    | _ => exact framed_invalid _ _

lemma framed_tables (key : String) : Framed (tables key) :=
  (framed_typed _ _ _).andThen (framed_tablesOfItems key)

lemma framed_unsigned (key : String) (maximum : Int) : Framed (unsigned key maximum) := by
  refine (framed_typed _ _ _).andThen fun n => ?_
  split_ifs
  · exact framed_invalid _ _
  · exact framed_invalid _ _
  · exact framed_pure _

lemma framed_name (key : String) : Framed (name key) := by
  refine (framed_text key).andThen fun s => ?_
  split_ifs
  · exact framed_pure _
  · exact framed_invalid _ _

lemma framed_conversion (key : String) (result : Except ConversionError α) :
    Framed (conversion key result) :=
  ((framed_usable _ _).map _).orElseUsable fun message =>
    (framed_invalidValue key message).bind fun _ => framed_pure none

lemma framed_converted (key : String) (f : Value → Except ConversionError α) :
    Framed (converted key f) :=
  (framed_value key).andThen fun _ => framed_conversion _ _

lemma framed_convertedText (key : String) (f : String → Except ConversionError α) :
    Framed (convertedText key f) :=
  (framed_text key).andThen fun _ => framed_conversion _ _

lemma Framed.required {key : String} {read : String → Procedure Inspection (Option α)}
    (hread : Framed (read key)) : Framed (required key read) :=
  hread.bind fun a => (framed_require key a.isSome).bind fun _ => framed_pure a

/-! ### Parts -/

lemma framed_children {check : Table → Procedure Context α} (hcheck : ∀ t, Framed (check t))
    (ts : List Table) : Framed (children check ts) := by
  induction ts with
  | nil => exact framed_pure _
  | cons t ts ih =>
    refine (hcheck t).unlessRefused.bind fun child? => ih.bind fun (accepted, refused) => ?_
    cases child? with
    | some child => exact framed_pure _
    | none => exact framed_pure _

lemma framed_refusedRanges (ts : List Table) : Framed (refusedRanges ts) := by
  induction ts with
  | nil => exact framed_pure _
  | cons t ts ih =>
    unfold refusedRanges
    split
    · refine Framed.bind (((framed_usable _ _).map _).orElseUsable fun _ => framed_pure none) ?_
      rintro (_ | range)
      · exact framed_pure _
      · exact ih.bind fun _ => framed_pure _
    · exact framed_pure _

lemma framed_checkEnumValue (t : Table) : Framed (checkEnumValue t) := by
  apply Framed.inspect
  refine (framed_name _).required.bind fun name => ?_
  apply Framed.inside
  refine (framed_checkUnknownKeys _).bind fun _ => ?_
  refine (framed_unsigned _ _).required.bind fun value => ?_
  refine (framed_text _).bind fun description => ?_
  refine framed_refuseFailed.bind fun _ => ?_
  exact (framed_granted value).bind fun _ => (framed_granted name).bind fun _ => framed_pure _

lemma framed_checkEnum (t : Table) : Framed (checkEnum t) := by
  apply Framed.inspect
  refine (framed_name _).required.bind fun name => ?_
  apply Framed.inside
  refine (framed_checkUnknownKeys _).bind fun _ => ?_
  refine (framed_convertedText _ _).required.bind fun range => ?_
  refine (framed_text _).bind fun description => ?_
  refine (framed_tables _).required.bind fun tables => ?_
  refine (framed_children framed_checkEnumValue _).aside.bind fun (values, _) => ?_
  refine framed_refuseFailed.bind fun _ => ?_
  exact (framed_granted name).bind fun _ => (framed_granted range).bind fun _ => framed_pure _

lemma framed_failForKeys (keys : List String) : Framed (failForKeys keys) := by
  induction keys with
  | nil => exact framed_pure _
  | cons key keys ih =>
    refine framed_get_bind (fun _ => rfl) fun i => ?_
    split_ifs
    · exact (framed_modify_reject _).bind fun _ => ih
    · exact (framed_pure ()).bind fun _ => ih

lemma framed_fitBitField (range : BitRange) (isReserved : Bool) (name description : Option String) :
    Framed (fitBitField range isReserved name description) := by
  unfold fitBitField
  split_ifs
  · exact (framed_failForKeys _).bind fun _ => framed_refuseFailed.bind fun _ => framed_pure _
  cases name with
  | some name => exact framed_pure _
  | none =>
    exact (framed_missingKey _).bind fun _ => framed_refuseFailed.bind fun _ => framed_pure _

lemma framed_checkBitField (t : Table) : Framed (checkBitField t) := by
  apply Framed.inspect
  refine (framed_convertedText _ _).required.bind fun range => ?_
  apply Framed.inside
  refine (framed_checkUnknownKeys _).bind fun _ => ?_
  refine (framed_typed _ _ _).bind fun isReserved => ?_
  refine (framed_name _).bind fun name => ?_
  refine (framed_text _).bind fun description => ?_
  refine framed_refuseFailed.bind fun _ => ?_
  exact (framed_granted range).bind fun range => framed_fitBitField range _ name description

/-! ### Fitting together -/

lemma framed_claimBits (fields : List BitField) (size position : Nat) (range : BitRange)
    (bits : List Nat) (owners : Owners) (reported : List Owner) :
    Framed (claimBits fields size position range bits owners reported) := by
  induction bits generalizing owners reported with
  | nil => exact framed_pure _
  | cons bit bits ih =>
    unfold claimBits
    split_ifs
    · exact (framed_recordConstraint _ _).bind fun _ => framed_pure _
    · refine (framed_item _ _).bind fun owner? => ?_
      rcases owner? with _ | owner
      · exact ih _ _
      dsimp only
      split_ifs
      · exact ih _ _
      cases owner with
      | field first =>
        exact (framed_item _ _).bind fun _ => (framed_recordConstraint _ _).bind fun _ => ih _ _
      | refused => exact framed_throw _

lemma framed_claimFields (all : List BitField) (size position : Nat) (fields : List BitField)
    (owners : Owners) : Framed (claimFields all size position fields owners) := by
  induction fields generalizing position owners with
  | nil => exact framed_pure _
  | cons f fields ih => exact (framed_claimBits _ _ _ _ _ _ _).bind fun _ => ih _ _

lemma framed_claimRefusedBits (size : Nat) (bits : List Nat) (owners : Owners) :
    Framed (claimRefusedBits size bits owners) := by
  induction bits generalizing owners with
  | nil => exact framed_pure _
  | cons bit bits ih =>
    unfold claimRefusedBits
    split_ifs
    · refine (framed_item _ _).bind fun owner? => ?_
      rcases owner? with _ | owner
      · exact ih _
      · exact ih _
    · exact ih _

lemma framed_claimRefused (size : Nat) (ranges : List BitRange) (owners : Owners) :
    Framed (claimRefused size ranges owners) := by
  induction ranges generalizing owners with
  | nil => exact framed_pure _
  | cons range ranges ih => exact (framed_claimRefusedBits _ _ _).bind fun _ => ih _

lemma framed_undefinedRanges (bit : Nat) (owners : Owners) (lsb : Option Nat) :
    Framed (undefinedRanges bit owners lsb) := by
  induction owners generalizing bit lsb with
  | nil =>
    cases lsb with
    | none => exact framed_pure _
    | some lsb => exact (framed_usable _ _).bind fun _ => framed_pure _
  | cons owner owners ih =>
    rcases owner with _ | owner
    · exact ih _ _
    cases lsb with
    | none => exact ih _ _
    | some lsb => exact (framed_usable _ _).bind fun _ => (ih _ _).bind fun _ => framed_pure _

lemma framed_recordUndefined (owners : Owners) : Framed (recordUndefined owners) := by
  refine (framed_undefinedRanges _ _ _).bind fun ranges => ?_
  cases ranges with
  | nil => exact framed_pure _
  | cons range ranges => exact framed_recordConstraint _ _

lemma framed_checkBitFields (r : Register) (refused : Option (List BitRange)) :
    Framed (checkBitFields r refused) := by
  refine (framed_claimFields _ _ _ _ _).bind fun owners => ?_
  cases refused with
  | none => exact framed_pure _
  | some ranges => exact (framed_claimRefused _ _ _).bind fun _ => framed_recordUndefined _

lemma framed_enter {κ : Type} [BEq κ] (table : TableKind) (key : κ) (name : String)
    (message : String → String) (seen : Dictionary κ) :
    Framed (enter table key name message seen) := by
  unfold enter
  cases seen.lookup key with
  | some other => exact (framed_recordConstraint _ _).bind fun _ => framed_pure _
  | none => exact framed_pure _

lemma framed_checkNames {name : α → Procedure Context String} (hname : ∀ a, Framed (name a))
    (message : String → String → String) (items : List α) (seen : Dictionary String) :
    Framed (checkNames name message items seen) := by
  induction items generalizing seen with
  | nil => exact framed_pure _
  | cons a items ih =>
    exact (hname a).bind fun _ => (framed_enter _ _ _ _ _).bind fun _ => ih _

lemma framed_checkFieldNames (fields : List BitField) : Framed (checkFieldNames fields) := by
  apply framed_checkNames
  intro f
  exact framed_granted f.name

lemma framed_checkRegisterNames (registers : List Register) :
    Framed (checkRegisterNames registers) := by
  apply framed_checkNames
  intro r
  exact framed_pure r.name

lemma framed_checkBound (e : RegisterEnum) (maxValue : Nat) (v : EnumValue) :
    Framed (checkBound e maxValue v) := by
  unfold checkBound
  split_ifs
  · exact framed_recordConstraint _ _
  · exact framed_pure _

lemma framed_checkValues (e : RegisterEnum) (maxValue : Nat) (values : List EnumValue)
    (numbers : Dictionary Int) (names : Dictionary String) :
    Framed (checkValues e maxValue values numbers names) := by
  induction values generalizing numbers names with
  | nil => exact framed_pure _
  | cons v values ih =>
    exact (framed_checkBound _ _ _).bind fun _ => (framed_enter _ _ _ _ _).bind fun _ =>
      (framed_enter _ _ _ _ _).bind fun _ => ih _ _

lemma framed_matchEnum (fields : List BitField) (refused : Option (List BitRange))
    (e : RegisterEnum) (claimed : Dictionary BitRange) :
    Framed (matchEnum fields refused e claimed) := by
  have hrecorded (message : String) :
      Framed (do recordConstraint .enumeration message; return (e, claimed)) :=
    (framed_recordConstraint _ _).bind fun _ => framed_pure _
  unfold matchEnum
  dsimp only
  split_ifs
  · cases refused with
    | none => exact framed_pure _
    | some ranges =>
      dsimp only
      split_ifs
      · exact framed_pure _
      · exact hrecorded _
  · exact hrecorded _
  cases claimed.lookup e.range with
  | some other => exact hrecorded _
  | none =>
    refine Framed.bind (((framed_usable _ _).map _).orElseUsable fun _ =>
      (framed_recordConstraint _ _).bind fun _ => framed_pure none) fun maxValue? => ?_
    cases maxValue? with
    | none => exact framed_pure _
    | some maxValue => exact (framed_checkValues _ _ _ _ _).bind fun _ => framed_pure _

lemma framed_matchEnums (fields : List BitField) (refused : Option (List BitRange))
    (enums : List RegisterEnum) (claimed : Dictionary BitRange) :
    Framed (matchEnums fields refused enums claimed) := by
  induction enums generalizing claimed with
  | nil => exact framed_pure _
  | cons e enums ih =>
    exact ((framed_matchEnum _ _ _ _).within _).bind fun (_, _) =>
      (ih _).bind fun _ => framed_pure _

lemma framed_settle (r : Register) (refused : Option (List BitRange)) : Framed (settle r refused) :=
  (framed_checkBitFields _ _).bind fun _ => (framed_checkFieldNames _).bind fun _ =>
    (framed_matchEnums _ _ _ _).bind fun _ => framed_pure _

/-! ### Registers -/

lemma framed_placeTemplate (d : Description) (kind : LocationKind) (text : String) :
    Framed (placeTemplate d kind text) := by
  unfold placeTemplate
  split_ifs
  · refine (framed_convertedText _ _).andThen fun (read, write) => ?_
    dsimp only
    cases ([read, write] : List Nat).find? (Placement.maxAddress d < ·) with
    | some address => exact framed_invalid _ _
    | none => exact framed_pure _
  · exact framed_invalid _ _

lemma framed_placeNumber (kind : LocationKind) (maximum : Int) : Framed (placeNumber kind maximum) :=
  (framed_unsigned _ _).andThen fun _ => framed_pure _

lemma framed_placeAddress (d : Description) (kind : LocationKind) : Framed (placeAddress d kind) := by
  refine (framed_value _).bind fun v => ?_
  split
  · exact framed_placeTemplate _ _ _
  · exact framed_placeNumber _ _

lemma framed_separateSlot (d : Description) : Framed (separateSlot d) := by
  refine framed_get_bind (fun _ => rfl) fun i => ?_
  dsimp only
  split_ifs
  · exact (framed_unsigned _ _).bind fun _ => framed_pure _
  · exact framed_pure _

lemma framed_place (d : Description) (present : List LocationKind) : Framed (place d present) := by
  unfold place
  split_ifs
  · exact framed_reject _
  · exact framed_reject _
  · refine (framed_item _ _).bind fun kind => ?_
    split_ifs
    · exact framed_placeNumber _ _
    · exact framed_placeAddress _ _

lemma framed_property {read : String → Procedure Inspection (Option α)} {key : String}
    (hread : Framed (read key)) (what : String) (default : Option α) :
    Framed (property key what read default) := by
  refine hread.bind fun a => framed_get_bind (fun _ => rfl) fun i => ?_
  split_ifs
  · exact framed_pure _
  · exact (framed_modify_reject _).bind fun _ => framed_pure _
  · exact (framed_pure ()).bind fun _ => framed_pure _

lemma framed_checkNamed (d : Description) (name : String) : Framed (checkNamed d name) := by
  refine (framed_text _).bind fun description => ?_
  refine (framed_separateSlot d).bind fun (slot, present) => ?_
  refine (framed_place d present).bind fun placement => ?_
  refine (framed_property (framed_converted _ _) _ _).bind fun size => ?_
  refine (framed_property (framed_convertedText _ _) _ _).bind fun access => ?_
  refine (framed_tables _).required.bind fun fieldTables => ?_
  refine (framed_children framed_checkBitField _).aside.bind fun (bitFields, refused) => ?_
  refine (framed_tables _).bind fun enumTables => ?_
  refine (framed_children framed_checkEnum _).aside.bind fun (enums, _) => ?_
  refine framed_refuseFailed.bind fun _ => ?_
  refine (framed_granted size).bind fun size => ?_
  refine (framed_granted access).bind fun access => ?_
  refine (framed_granted placement).bind fun placement => ?_
  exact ((framed_refusedRanges refused).bind fun _ => framed_settle _ _).aside

lemma framed_checkRegister (d : Description) (t : Table) : Framed (checkRegister d t) := by
  apply Framed.inspect
  refine (framed_name _).required.bind fun name => ?_
  apply Framed.inside
  refine (framed_checkUnknownKeys _).bind fun _ => ?_
  refine framed_refuseFailed.bind fun _ => ?_
  exact (framed_granted name).bind fun name => framed_checkNamed d name

/-! ### Documents -/

lemma framed_checkDescription (t : Table) : Framed (checkDescription t) := by
  apply Framed.inspect
  refine (framed_checkUnknownKeys _).bind fun _ => ?_
  refine (framed_name _).required.bind fun name => ?_
  apply Framed.inside
  refine (framed_convertedText _ _).required.bind fun version => ?_
  refine (framed_text _).bind fun description => ?_
  refine (framed_convertedText _ _).bind fun extension => ?_
  refine (framed_converted _ _).bind fun defaultSize => ?_
  refine (framed_convertedText _ _).bind fun defaultAccess => ?_
  refine (framed_converted _ _).bind fun indexSize => ?_
  refine (framed_converted _ _).bind fun addressSize => ?_
  refine framed_get_bind (fun _ => rfl) fun i => ?_
  split_ifs
  · exact framed_pure _
  · exact (framed_granted name).bind fun _ => (framed_granted version).bind fun _ => framed_pure _

lemma framed_checkItems (d : Description) (items : List Value) : Framed (checkItems d items) := by
  induction items with
  | nil => exact framed_pure _
  | cons item items ih =>
    unfold checkItems
    split
    · exact (framed_checkRegister d _).unlessRefused.bind fun _ => ih.bind fun _ => framed_pure _
    · exact (framed_recordInvalid _ _ _).bind fun _ => ih

lemma framed_checkArray (d : Description) (items : List Value) : Framed (checkArray d items) :=
  (framed_checkItems d items).bind fun registers =>
    (framed_checkRegisterNames registers).bind fun _ => framed_pure _

lemma framed_enterGroupName (name : String) (seen : Dictionary String) :
    Framed (enterGroupName name seen) := by
  unfold enterGroupName
  split_ifs
  · exact framed_enter _ _ _ _ _
  · exact (framed_recordConstraint _ _).bind fun _ => framed_pure _

lemma framed_checkGroup (d : Description) (name : String) (v : Value) (seen : Dictionary String) :
    Framed (checkGroup d name v seen) := by
  cases v with
  | array items =>
    exact (framed_enterGroupName _ _).bind fun _ => (framed_checkArray d items).bind fun _ =>
      framed_pure _
  | _ => exact (framed_recordInvalid _ _ _).bind fun _ => framed_pure _

lemma framed_checkGroups (d : Description) (entries : Table) (seen : Dictionary String) :
    Framed (checkGroups d entries seen) := by
  induction entries generalizing seen with
  | nil => exact framed_pure _
  | cons entry entries ih =>
    exact ((framed_checkGroup d entry.1 entry.2 seen).within _).bind fun (_, _) =>
      (ih _).bind fun _ => framed_pure _

/-! ### Siblings -/

section Siblings

variable (d : Description)

/-- What an item of an array of registers yields when it is checked alone, in an empty context: the
register that it is accepted as, if it is, and the diagnostics. -/
def checkAlone : Value → Option Register × List Diagnostic
  | .table t =>
    match (checkRegister d t).run .empty with
    | .ok r c => (some r, c.diagnostics)
    | .error _ c => (none, c.diagnostics)
  | other =>
    (none, [.invalidValue .root [] "register" (Fault.unexpected "an array of tables" other).message])

/-- A table among others is checked as if it was alone. The check stops only where it refuses it. -/
lemma run_checkRegister_alone (t : Table) (c : Context) :
    (unlessRefused (checkRegister d t)).run c = .ok (checkAlone d (.table t)).1
      (c.record ((checkAlone d (.table t)).2.map (.below c.path))) := by
  have hframed : (unlessRefused (checkRegister d t)).run c =
      mapState c.resume ((unlessRefused (checkRegister d t)).run .empty) :=
    (framed_checkRegister d t).unlessRefused c
  rw [hframed, run_unlessRefused, checkAlone, checkRegister_follows d t, answer]
  cases (Register.check d Context.empty.path t).outcome <;> rfl

lemma run_checkItems_alone (items : List Value) (c : Context) :
    (checkItems d items).run c = .ok (items.filterMap fun item => (checkAlone d item).1)
      (c.record ((items.flatMap fun item => (checkAlone d item).2).map (.below c.path))) := by
  induction items generalizing c with
  | nil => simp [checkItems, EStateM.run_pure]
  | cons item items ih =>
    cases item with
    | table t =>
      simp only [checkItems, EStateM.run_bind, run_checkRegister_alone, ih, EStateM.run_pure]
      cases h : (checkAlone d (.table t)).1 <;> simp [h]
    | _ => simp [checkItems, EStateM.run_bind, ih, checkAlone]

/-- Every check of the parts of a document does in any context what it does in an empty one, however
it ends: the open scopes are the same again, and it adds the diagnostics of the empty context below
these scopes. So an array of registers yields what each of its items yields alone, one after
another, followed by the clashes of the names of the accepted registers. -/
theorem checks_framed_and_items_alone :
    (∀ t, Framed (checkEnumValue t)) ∧ (∀ t, Framed (checkEnum t)) ∧
    (∀ t, Framed (checkBitField t)) ∧ (∀ d t, Framed (checkRegister d t)) ∧
    (∀ t, Framed (checkDescription t)) ∧ (∀ d items, Framed (checkArray d items)) ∧
    (∀ d entries seen, Framed (checkGroups d entries seen)) ∧
    (∀ r refused, Framed (checkBitFields r refused)) ∧
    (∀ fields, Framed (checkFieldNames fields)) ∧
    (∀ fields refused enums claimed, Framed (matchEnums fields refused enums claimed)) ∧
    (∀ r refused, Framed (settle r refused)) ∧
    (∀ registers, Framed (checkRegisterNames registers)) ∧
    ∀ d items c, ∃ registers clashes,
      registers = items.filterMap (fun item => (checkAlone d item).1) ∧
      (checkRegisterNames registers).run .empty = .ok () ⟨[], clashes⟩ ∧
      (checkArray d items).run c = .ok registers (c.record
        (((items.flatMap fun item => (checkAlone d item).2) ++ clashes).map (.below c.path))) := by
  refine ⟨framed_checkEnumValue, framed_checkEnum, framed_checkBitField, framed_checkRegister,
    framed_checkDescription, framed_checkArray, framed_checkGroups, framed_checkBitFields,
    framed_checkFieldNames, framed_matchEnums, framed_settle, framed_checkRegisterNames, ?_⟩
  intro d items c
  refine ⟨_, Register.nameProblems [] (items.filterMap fun item => (checkAlone d item).1), rfl,
    run_checkRegisterNames _ _, ?_⟩
  have hnames := framed_checkRegisterNames (items.filterMap fun item => (checkAlone d item).1)
  simp only [checkArray, EStateM.run_bind, run_checkItems_alone, framed_iff.mp hnames (c.record _),
    run_checkRegisterNames]
  simp [EStateM.run_pure]

end Siblings

end RegisterMap.Procedure
