import RegisterMap.Proofs.Register

/-!
# The keys that locate a register

The value of a location key denotes the locations of a register if it is a number within bounds, or
else a template of addresses within bounds where templates are enabled. A register is located by an
index alone, or by one of the two addresses; beside an address, the index selects a slot.
-/

namespace RegisterMap.Placement

variable {d : Description} {t : Table} {kind : LocationKind} {p : Placement} {slot : Option Int}

/-! ### Values of location keys -/

/-- The largest number that locates a register. -/
def bound (d : Description) : LocationKind → Nat
  | .index => d.indexSize.maxValue
  | _ => maxAddress d

lemma bound_of_ne_index (d : Description) (hkind : kind ≠ .index) :
    bound d kind = maxAddress d := by
  cases kind with
  | index => exact absurd rfl hkind
  | _ => rfl

/-- The locations that a value gives under the key of a location kind. -/
inductive Denotes (d : Description) (kind : LocationKind) : Value → Placement → Prop
  | number {n : Int} (hnonneg : 0 ≤ n) (hbound : n ≤ bound d kind) :
    Denotes d kind (.integer n) (same kind n)
  | template {text : String} {read write : Nat} (hkind : kind ≠ .index)
    (hextension : d.extension = some .vga)
    (hexpand : AddressTemplate.expand text = .ok (read, write))
    (hread : read ≤ bound d kind) (hwrite : write ≤ bound d kind) :
    Denotes d kind (.text text) ⟨⟨kind, read⟩, ⟨kind, write⟩⟩

lemma addressFault?_eq_none_iff {read write : Nat} :
    addressFault? d [read, write] = none ↔ read ≤ maxAddress d ∧ write ≤ maxAddress d := by
  simp [addressFault?, List.find?_eq_none]

lemma ofTemplate_eq_valid_iff {text : String} :
    ofTemplate d kind text = .valid p ↔ d.extension = some .vga ∧
      ∃ read write, AddressTemplate.expand text = .ok (read, write) ∧
        (read ≤ maxAddress d ∧ write ≤ maxAddress d) ∧ p = ⟨⟨kind, read⟩, ⟨kind, write⟩⟩ := by
  simp only [← Conversion.addresses_eq_ok_iff, ← addressFault?_eq_none_iff]
  unfold ofTemplate
  by_cases hextension : d.extension = some .vga
  · rw [if_pos hextension]
    cases haddresses : Conversion.addresses text with
    | error e => simp
    | ok addresses =>
      cases hfault : addressFault? d [addresses.1, addresses.2] with
      | some fault =>
        simp only [hfault, reduceCtorEq, false_iff]
        rintro ⟨_, read, write, heq, hnone, _⟩
        cases heq
        simp [hfault] at hnone
      | none =>
        simp only [hfault, hextension, true_and, Reading.valid.injEq, eq_comm (a := p)]
        constructor
        · intro hp
          exact ⟨_, _, rfl, hfault, hp⟩
        · rintro ⟨read, write, heq, _, hp⟩
          cases heq
          exact hp
  · simp [hextension]

/-- A number under a location key that is no template. -/
lemma number_eq_valid_iff {maximum : Nat} (hmaximum : bound d kind = maximum)
    (htext : ∀ text, t.get? kind.key = some (.text text) → kind = .index) :
    ((t.unsigned kind.key maximum).bind fun n => .valid (same kind n)) = .valid p ↔
      ∃ v, t.get? kind.key = some v ∧ Denotes d kind v p := by
  rw [Reading.bind_eq_valid_iff]
  constructor
  · rintro ⟨n, hn, hp⟩
    obtain ⟨hget, hnonneg, hle⟩ := Table.unsigned_eq_valid_iff.mp hn
    cases hp
    exact ⟨_, hget, .number hnonneg (hmaximum ▸ hle)⟩
  · rintro ⟨_, hget, hdenotes⟩
    cases hdenotes with
    | @number n hnonneg hbound =>
      exact ⟨n, Table.unsigned_eq_valid_iff.mpr ⟨hget, hnonneg, hmaximum ▸ hbound⟩, rfl⟩
    | template hkind => exact absurd (htext _ hget) hkind

lemma ofAddress_eq_valid_iff (hkind : kind ≠ .index) :
    ofAddress d t kind = .valid p ↔ ∃ v, t.get? kind.key = some v ∧ Denotes d kind v p := by
  have hbound := bound_of_ne_index d hkind
  unfold ofAddress
  split
  next text htext =>
    rw [ofTemplate_eq_valid_iff, htext]
    constructor
    · rintro ⟨hextension, read, write, hexpand, ⟨hread, hwrite⟩, rfl⟩
      exact ⟨_, rfl, .template hkind hextension hexpand (hbound ▸ hread) (hbound ▸ hwrite)⟩
    · rintro ⟨_, ⟨⟩, hdenotes⟩
      cases hdenotes with
      | template _ hextension hexpand hread hwrite =>
        exact ⟨hextension, _, _, hexpand, ⟨hbound ▸ hread, hbound ▸ hwrite⟩, rfl⟩
  next htext => exact number_eq_valid_iff hbound fun text hget => absurd hget (htext text)

/-- A location key gives the locations that its value denotes. -/
lemma ofKey_eq_valid_iff :
    ofKey d t kind = .valid p ↔ ∃ v, t.get? kind.key = some v ∧ Denotes d kind v p := by
  cases kind with
  | index => exact number_eq_valid_iff rfl fun _ _ => rfl
  | relative => exact ofAddress_eq_valid_iff (by simp)
  | absolute => exact ofAddress_eq_valid_iff (by simp)

/-! ### Slots -/

/-- What is known of the slot beside a location key. -/
structure SlotFits (d : Description) (kind : LocationKind) (slot : Int) : Prop where
  extension_eq : d.extension = some .vga
  kind_ne : kind ≠ .index
  nonneg : 0 ≤ slot
  le_maxSlot : slot ≤ maxSlot

/-- Whether a table has one location key, and the key of an index if there is a slot. -/
def HasKeys (t : Table) (kind : LocationKind) (slot : Option Int) : Prop :=
  ∀ k : LocationKind, t.has k.key = (k == kind || k == .index && slot.isSome)

lemma hasKeys_iff : HasKeys t kind slot ↔
    t.has LocationKind.absolute.key = (.absolute == kind) ∧
      t.has LocationKind.relative.key = (.relative == kind) ∧
      t.has LocationKind.index.key = (.index == kind || slot.isSome) := by
  have hneAbsolute : (LocationKind.absolute == .index) = false := rfl
  have hneRelative : (LocationKind.relative == .index) = false := rfl
  constructor
  · intro h
    exact ⟨by simpa [hneAbsolute] using h .absolute, by simpa [hneRelative] using h .relative,
      by simpa using h .index⟩
  · rintro ⟨habsolute, hrelative, hindex⟩ k
    cases k with
    | absolute => simpa [hneAbsolute] using habsolute
    | relative => simpa [hneRelative] using hrelative
    | index => simpa using hindex

/-- A location key alone locates a register without a slot. -/
lemma locatingKinds_of_slot_none (h : HasKeys t kind none) :
    locatingKinds d t = [kind] ∧ Placement.slot d t = .absent := by
  have hkinds : kinds t = [kind] := by
    have habsolute := h .absolute
    have hrelative := h .relative
    have hindex := h .index
    cases kind <;> simp_all [kinds]
  have hhas : hasSlot d t = false := by simp [hasSlot, hkinds]
  simp [locatingKinds, Placement.slot, hhas, hkinds]

/-- Beside the key of an index, an address locates a register with a slot. -/
lemma locatingKinds_of_slot_some {slot : Int} (h : HasKeys t kind (some slot))
    (hfits : SlotFits d kind slot)
    (hget : t.get? LocationKind.index.key = some (.integer slot)) :
    locatingKinds d t = [kind] ∧ Placement.slot d t = .valid slot := by
  have hne := hfits.kind_ne
  have hkinds : kinds t = [kind, .index] := by
    have habsolute := h .absolute
    have hrelative := h .relative
    have hindex := h .index
    cases kind <;> simp_all [kinds]
  have hhas : hasSlot d t = true := by
    have hindex := h .index
    simp_all [hasSlot, hfits.extension_eq]
  have hfilter : ([kind, .index] : List LocationKind).filter (· != .index) = [kind] := by
    cases kind <;> simp_all
  rw [locatingKinds, if_pos hhas, hkinds, Placement.slot, if_pos hhas]
  exact ⟨hfilter, Table.unsigned_eq_valid_iff.mpr ⟨hget, hfits.nonneg, hfits.le_maxSlot⟩⟩

/-- A single kind locates a register if its key is the only location key, or stands beside an index
that selects a slot. -/
lemma locatingKinds_eq_singleton_iff :
    locatingKinds d t = [kind] ∧ (Placement.slot d t).optional? = some slot ↔
      HasKeys t kind slot ∧ ∀ n ∈ slot, SlotFits d kind n ∧
        t.get? LocationKind.index.key = some (.integer n) := by
  constructor
  · rintro ⟨hkinds, hslot⟩
    unfold locatingKinds at hkinds
    unfold Placement.slot at hslot
    -- An index that selects a slot is a location key of the table, but does not locate it.
    by_cases hhas : hasSlot d t = true
    · rw [if_pos hhas] at hkinds hslot
      obtain ⟨⟨hextension, hindex⟩, _⟩ := by simpa [hasSlot] using hhas
      have hmem (k : LocationKind) (hk : k ≠ .index) : t.has k.key = true ↔ k = kind := by
        rw [← mem_kinds_iff, ← List.mem_singleton, ← hkinds, List.mem_filter]
        simp [hk]
      have hne : kind ≠ .index := by
        have : kind ∈ (kinds t).filter (· != .index) := by simp [hkinds]
        simpa using (List.mem_filter.mp this).2
      obtain ⟨habsent, _⟩ | ⟨n, hvalid, rfl⟩ := Reading.optional?_eq_some_iff.mp hslot
      · rw [Table.unsigned_eq_absent_iff, ← Table.has_eq_false_iff, hindex] at habsent
        cases habsent
      obtain ⟨hget, hnonneg, hle⟩ := Table.unsigned_eq_valid_iff.mp hvalid
      refine ⟨fun k => ?_, by simpa using ⟨⟨hextension, hne, hnonneg, hle⟩, hget⟩⟩
      by_cases hk : k = .index
      · simp [hk, hindex]
      · rw [Bool.eq_iff_iff, hmem k hk]
        simp [hk]
    · rw [if_neg hhas] at hkinds hslot
      obtain rfl : none = slot := by simpa [Reading.optional?] using hslot
      refine ⟨fun k => ?_, by simp⟩
      rw [Bool.eq_iff_iff, ← mem_kinds_iff, hkinds]
      simp
  · rintro ⟨hkeys, hslot⟩
    cases slot with
    | none =>
      obtain ⟨hkinds, habsent⟩ := locatingKinds_of_slot_none (d := d) hkeys
      exact ⟨hkinds, by rw [habsent]; rfl⟩
    | some n =>
      obtain ⟨hfits, hget⟩ := hslot n rfl
      obtain ⟨hkinds, hvalid⟩ := locatingKinds_of_slot_some hkeys hfits hget
      exact ⟨hkinds, by rw [hvalid]; rfl⟩

/-! ### Locations -/

/-- The slot that a table selects beside an address, by its index. -/
inductive SelectsSlot (d : Description) (t : Table) : Option Int → Prop
  | absent (hindex : t.get? LocationKind.index.key = none) : SelectsSlot d t none
  | selected {n : Int} (hextension : d.extension = some .vga)
    (hindex : t.get? LocationKind.index.key = some (.integer n)) (hnonneg : 0 ≤ n)
    (hle : n ≤ 65535) : SelectsSlot d t (some n)

/-- A table locates a register by an index alone, or by one of the two addresses, beside which an
index selects a slot. -/
inductive Locates (d : Description) (t : Table) : Placement → Option Int → Prop
  | index {n : Int} (habsolute : t.get? LocationKind.absolute.key = none)
    (hrelative : t.get? LocationKind.relative.key = none)
    (hindex : t.get? LocationKind.index.key = some (.integer n)) (hnonneg : 0 ≤ n)
    (hle : n ≤ d.indexSize.maxValue) : Locates d t (same .index n) none
  | absolute {v : Value} {p : Placement} {slot : Option Int}
    (hrelative : t.get? LocationKind.relative.key = none)
    (habsolute : t.get? LocationKind.absolute.key = some v) (hdenotes : Denotes d .absolute v p)
    (hslot : SelectsSlot d t slot) : Locates d t p slot
  | relative {v : Value} {p : Placement} {slot : Option Int}
    (habsolute : t.get? LocationKind.absolute.key = none)
    (hrelative : t.get? LocationKind.relative.key = some v) (hdenotes : Denotes d .relative v p)
    (hslot : SelectsSlot d t slot) : Locates d t p slot

lemma selectsSlot_iff (hkind : kind ≠ .index) :
    SelectsSlot d t slot ↔ t.has LocationKind.index.key = slot.isSome ∧
      ∀ n ∈ slot, SlotFits d kind n ∧ t.get? LocationKind.index.key = some (.integer n) := by
  constructor
  · rintro (hindex | ⟨hextension, hindex, hnonneg, hle⟩)
    · exact ⟨by simp [Table.has, hindex], by simp⟩
    · have hfits : SlotFits d kind _ := ⟨hextension, hkind, hnonneg, hle⟩
      exact ⟨by simp [Table.has, hindex], by simpa using ⟨hfits, hindex⟩⟩
  · rintro ⟨hhas, hslot⟩
    cases slot with
    | none => exact .absent (Table.has_eq_false_iff.mp hhas)
    | some n =>
      obtain ⟨hfits, hget⟩ := hslot n rfl
      exact .selected hfits.extension_eq hget hfits.nonneg hfits.le_maxSlot

/-- The key that locates a register is the one of its kind, and gives what its value denotes. -/
lemma exists_locatingKind_iff :
    (∃ kind, locatingKinds d t = [kind] ∧ ofKey d t kind = .valid p ∧
      (Placement.slot d t).optional? = some slot) ↔
      ∃ kind, HasKeys t kind slot ∧ (∃ v, t.get? kind.key = some v ∧ Denotes d kind v p) ∧
        ∀ n ∈ slot, SlotFits d kind n ∧ t.get? LocationKind.index.key = some (.integer n) := by
  refine exists_congr fun kind => ?_
  rw [and_left_comm, locatingKinds_eq_singleton_iff, ofKey_eq_valid_iff, and_left_comm]

/-- A table locates a register by the one key that locates it, and by its slot. -/
lemma locates_iff : Locates d t p slot ↔ ∃ kind, locatingKinds d t = [kind] ∧
    ofKey d t kind = .valid p ∧ (Placement.slot d t).optional? = some slot := by
  have hpresent {key : String} {v : Value} (h : t.get? key = some v) : t.has key = true := by
    simp [Table.has, h]
  have habsent {key : String} : t.has key = false ↔ t.get? key = none := Table.has_eq_false_iff
  rw [exists_locatingKind_iff]
  constructor
  · rintro (⟨habsolute, hrelative, hindex, hnonneg, hle⟩ |
      ⟨hrelative, habsolute, hdenotes, hslot⟩ | ⟨habsolute, hrelative, hdenotes, hslot⟩)
    · have hkeys : HasKeys t .index none :=
        hasKeys_iff.mpr ⟨habsent.mpr habsolute, habsent.mpr hrelative, hpresent hindex⟩
      exact ⟨.index, hkeys, ⟨_, hindex, .number hnonneg hle⟩, by simp⟩
    · have hkind : LocationKind.absolute ≠ .index := by simp
      obtain ⟨hindex, hslot⟩ := (selectsSlot_iff hkind).mp hslot
      have hkeys : HasKeys t .absolute slot :=
        hasKeys_iff.mpr ⟨hpresent habsolute, habsent.mpr hrelative, hindex⟩
      exact ⟨.absolute, hkeys, ⟨_, habsolute, hdenotes⟩, hslot⟩
    · have hkind : LocationKind.relative ≠ .index := by simp
      obtain ⟨hindex, hslot⟩ := (selectsSlot_iff hkind).mp hslot
      have hkeys : HasKeys t .relative slot :=
        hasKeys_iff.mpr ⟨habsent.mpr habsolute, hpresent hrelative, hindex⟩
      exact ⟨.relative, hkeys, ⟨_, hrelative, hdenotes⟩, hslot⟩
  · rintro ⟨kind, hkeys, ⟨v, hget, hdenotes⟩, hslot⟩
    obtain ⟨habsolute, hrelative, hindex⟩ := hasKeys_iff.mp hkeys
    cases kind with
    | index =>
      obtain rfl : slot = none :=
        Option.eq_none_iff_forall_not_mem.mpr fun n hn => (hslot n hn).1.kind_ne rfl
      cases hdenotes with
      | number hnonneg hbound =>
        exact .index (habsent.mp habsolute) (habsent.mp hrelative) hget hnonneg hbound
      | template hkind => exact absurd rfl hkind
    | absolute =>
      exact .absolute (habsent.mp hrelative) hget hdenotes
        ((selectsSlot_iff (by simp)).mpr ⟨hindex, hslot⟩)
    | relative =>
      exact .relative (habsent.mp habsolute) hget hdenotes
        ((selectsSlot_iff (by simp)).mpr ⟨hindex, hslot⟩)

end RegisterMap.Placement
