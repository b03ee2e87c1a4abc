import RegisterMap.Proofs.Procedure.Names

/-!
# Matching enumerations step by step

The dictionary of a register's enumerations has the first one for every range of bit fields that are
not reserved. Each enumeration that is matched is therefore judged beside those before it, and the
loop records what comes of each in turn.
-/

namespace RegisterMap.Procedure

/-! ### Values -/

section Values

variable {e : RegisterEnum} {maxValue : Nat} {values : List EnumValue}
  {earlier : List (String × EnumValue)} {numbers : Dictionary Int} {names : Dictionary String}

lemma run_checkBound (v : EnumValue) (c : Context) :
    (checkBound e maxValue v).run c = .ok () (c.record
      ((if (maxValue : Int) < v.value then
        [s!"enum value '{v.name}' with value '{v.value}' for enum '{e.name}' is larger than enum " ++
          s!"max value '{maxValue}'"]
      else []).map (.constraint .enumeration c.path))) := by
  unfold checkBound
  split_ifs <;> simp

/-- The number and the name of each value are looked up among those of the values before it. -/
lemma run_checkValues (hnumbers : HoldsFirst (·.2.value) (·.2.name) earlier numbers)
    (hnames : HoldsFirst Prod.fst (·.2.name) earlier names) (c : Context) :
    (checkValues e maxValue values numbers names).run c =
      .ok () (c.record ((inTurn (e.valueProblems maxValue) earlier
        (keyed (Name.constant ·.name) values)).map (.constraint .enumeration c.path))) := by
  induction values generalizing earlier numbers names c with
  | nil => simp [checkValues, keyed, inTurn]
  | cons v rest ih =>
    obtain ⟨numbers', hnumber, hnumbers'⟩ := run_enter hnumbers (Name.constant v.name, v)
      .enumeration
      (fun other => s!"enum values '{v.name}' and '{other}' have the same value '{v.value}'")
    obtain ⟨names', hname, hnames'⟩ := run_enter hnames (Name.constant v.name, v) .enumeration
      (fun other => s!"enum values '{v.name}' and '{other}' have the same name")
    dsimp only at hnumber hname
    simp only [checkValues, EStateM.run_bind, run_checkBound, hnumber, hname, ih hnumbers' hnames',
      Context.record_record, Context.path_record]
    simp only [keyed, List.map_cons, inTurn, RegisterEnum.valueProblems, List.map_append,
      List.map_map, List.append_assoc]
    rfl

end Values

/-! ### Matching -/

/-- Whether an enumeration describes bit fields, none of which is reserved. -/
def isClaimable (fields : List BitField) (e : RegisterEnum) : Bool :=
  let fields := fields.filter (·.range == e.range)
  !fields.isEmpty && !fields.any BitField.isReserved

/-- The dictionary holds the first enumeration for each range that can be claimed. -/
def Claims (fields : List BitField) (earlier : List RegisterEnum)
    (claimed : Dictionary BitRange) : Prop :=
  HoldsFirst RegisterEnum.range RegisterEnum.name (earlier.filter (isClaimable fields)) claimed

section Matching

variable {fields : List BitField} {refused : Option (List BitRange)} {e : RegisterEnum}
  {earlier enums : List RegisterEnum} {claimed : Dictionary BitRange}

lemma claims_nil : Claims fields [] [] := holdsFirst_nil

/-- An enumeration that describes nothing is not entered. -/
lemma Claims.append_of_false (h : Claims fields earlier claimed)
    (he : isClaimable fields e = false) : Claims fields (earlier ++ [e]) claimed := by
  simpa [Claims, he] using h

/-- The rivals of an enumeration that can be claimed can be claimed as well. -/
lemma rival?_filter_isClaimable (he : isClaimable fields e = true) :
    rival? RegisterEnum.range (earlier.filter (isClaimable fields)) e =
      earlier.find? (·.range == e.range) := by
  rw [rival?, List.find?_filter]
  congr 1
  funext other
  by_cases hrange : other.range = e.range
  · have hother : isClaimable fields other = true := by
      rw [← he, isClaimable, isClaimable, hrange]
    simp [hrange, hother]
  · simp [hrange]

/-- What comes of an enumeration that is matched, in a context. -/
def matched (e : RegisterEnum) (c : Context) : RegisterEnum.Match → RegisterEnum × Context
  | .unresolved => (e, c)
  | .refused message => (e, c.record [.constraint .enumeration c.path message])
  | .accepted maxValue =>
    ({ e with isComplete := e.values.length == maxValue + 1 },
      c.record ((e.valuesProblems maxValue).map (.constraint .enumeration c.path)))

/-- Matching an enumeration does what its match with the bit fields tells. -/
lemma run_matchEnum (refused : Option (List BitRange)) (e : RegisterEnum)
    (h : Claims fields earlier claimed) (c : Context) :
    ∃ claimed', (matchEnum fields refused e claimed).run c =
        .ok ((matched e c (e.matchField fields refused earlier)).1, claimed')
          (matched e c (e.matchField fields refused earlier)).2 ∧
      Claims fields (earlier ++ [e]) claimed' := by
  unfold matchEnum RegisterEnum.matchField
  dsimp only
  by_cases hempty : (fields.filter (·.range == e.range)).isEmpty = true
  · have hclaims : Claims fields (earlier ++ [e]) claimed :=
      h.append_of_false (by simp [isClaimable, hempty])
    rw [if_pos hempty, if_pos hempty]
    cases refused with
    | none => exact ⟨claimed, rfl, hclaims⟩
    | some ranges =>
      dsimp only
      by_cases hmem : e.range ∈ ranges
      · have hall : (some ranges).all (e.range ∈ ·) = true := by simp [hmem]
        rw [if_pos hmem, if_pos hall]
        exact ⟨claimed, rfl, hclaims⟩
      · have hall : ¬ (some ranges).all (e.range ∈ ·) = true := by simp [hmem]
        rw [if_neg hmem, if_neg hall]
        exact ⟨claimed, rfl, hclaims⟩
  rw [if_neg hempty, if_neg hempty]
  by_cases hreserved : (fields.filter (·.range == e.range)).any BitField.isReserved = true
  · rw [if_pos hreserved, if_pos hreserved]
    exact ⟨claimed, rfl, h.append_of_false (by simp [isClaimable, hreserved])⟩
  rw [if_neg hreserved, if_neg hreserved]
  have he : isClaimable fields e = true := by
    simp [isClaimable, hempty, hreserved]
  -- Only an enumeration that can be claimed is looked up, and its rivals can be claimed too.
  have hrival : rival? RegisterEnum.range (earlier.filter (isClaimable fields)) e = _ :=
    rival?_filter_isClaimable he
  have hfilter : (earlier ++ [e]).filter (isClaimable fields) =
      earlier.filter (isClaimable fields) ++ [e] := by
    simp [he]
  have hlookup : claimed.lookup e.range = _ := HoldsFirst.lookup_eq h
  rw [hlookup, hrival]
  unfold Claims
  rw [hfilter]
  cases hfind : earlier.find? (·.range == e.range) with
  | some other =>
    refine ⟨claimed, rfl, HoldsFirst.append_of_rival h ?_⟩
    rw [hrival, hfind]
    exact Option.some_ne_none other
  | none =>
    refine ⟨(e.range, e.name) :: claimed, ?_, HoldsFirst.append_of_none h (hrival.trans hfind)⟩
    simp only [Option.map_none]
    rw [EStateM.run_bind, run_orElseUsable_usable]
    cases e.range.maxValue with
    | error error => rfl
    | ok maxValue =>
      simp only [EStateM.run_bind, run_checkValues holdsFirst_nil holdsFirst_nil]
      rfl

/-- An enumeration is settled by its match, in a scope of its own. -/
lemma run_settleEnum (refused : Option (List BitRange)) (e : RegisterEnum)
    (h : Claims fields earlier claimed) (c : Context) :
    ∃ claimed', (within (some s!"enum '{e.name}'") (matchEnum fields refused e claimed)).run c =
        .ok ((e.settle c.path fields refused earlier).outcome, claimed')
          (c.record (e.settle c.path fields refused earlier).report.diagnostics) ∧
      Claims fields (earlier ++ [e]) claimed' := by
  obtain ⟨claimed', hrun, hclaims⟩ := run_matchEnum refused e h (c.enter (some s!"enum '{e.name}'"))
  refine ⟨claimed', ?_, hclaims⟩
  rw [run_within, hrun]
  unfold RegisterEnum.settle
  cases e.matchField fields refused earlier <;>
    simp [matched, Context.leave_record, Context.leave_enter, Context.path_enter]

/-- The enumerations of a register are settled in turn. -/
lemma run_matchEnums (h : Claims fields earlier claimed) (c : Context) :
    (matchEnums fields refused enums claimed).run c =
      .ok ((inTurn (fun earlier e => [RegisterEnum.settle c.path fields refused earlier e])
          earlier enums).map (·.outcome))
        (c.record (Report.diagnostics ((inTurn (fun earlier e =>
          [RegisterEnum.settle c.path fields refused earlier e]) earlier enums).flatMap
            (·.report)))) := by
  induction enums generalizing earlier claimed c with
  | nil => simp [matchEnums, inTurn]
  | cons e rest ih =>
    obtain ⟨claimed', hrun, hclaims⟩ := run_settleEnum refused e h c
    simp only [matchEnums, EStateM.run_bind, hrun, ih hclaims]
    simp [inTurn]

end Matching

end RegisterMap.Procedure
