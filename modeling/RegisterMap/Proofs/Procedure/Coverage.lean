import Mathlib.Data.List.Basic
import RegisterMap.Proofs.Coverage
import RegisterMap.Procedure.Fit
import RegisterMap.Proofs.Procedure.Reading

/-!
# The scan of the bits of a register

While the bit fields of a register are gone through, every bit has the first bit field as its owner
that covers it. The bits of a bit field therefore meet the owners that the ranges before it give
them, each of which is told of once. At the end the runs of bits without an owner are those of the
bits that no range covers.
-/

namespace RegisterMap.Procedure

open BitRange

/-! ### Lists of owners -/

/-- The owners of the bits of a register. -/
def ownersBy (size : Nat) (owner : Nat → Option Owner) : Owners := (List.range size).map owner

section Owners

variable {size bit : Nat} {owner owner' : Nat → Option Owner}

lemma run_item_ownersBy (h : bit < size) (c : Context) :
    (item (ownersBy size owner) bit).run c = .ok (owner bit) c := by
  have hget : (ownersBy size owner)[bit]? = some (owner bit) := by
    simp [ownersBy, h]
  rw [item, hget]
  rfl

lemma ownersBy_congr (h : ∀ bit < size, owner bit = owner' bit) :
    ownersBy size owner = ownersBy size owner' :=
  List.map_congr_left fun bit hbit => h bit (List.mem_range.mp hbit)

lemma set_ownersBy (o : Option Owner) :
    (ownersBy size owner).set bit o =
      ownersBy size fun other => if other = bit then o else owner other := by
  apply List.ext_getElem
  · simp [ownersBy]
  · intro i hi hi'
    simp [ownersBy, List.getElem_set, eq_comm]

end Owners

/-! ### First owners -/

/-- The position of the first bit field that covers a bit. -/
def firstField (fields : List BitField) (bit : Nat) : Option Nat :=
  fields.findIdx? (·.range.contains bit)

/-- The first bit field that covers a bit, as its owner. -/
def firstOwner (fields : List BitField) (bit : Nat) : Option Owner :=
  (firstField fields bit).map .field

variable {fields : List BitField} {bit position : Nat}

lemma firstOwner_append (f : BitField) :
    firstOwner (fields ++ [f]) bit = (firstOwner fields bit).or
      (if f.range.contains bit then some (.field fields.length) else none) := by
  unfold firstOwner firstField
  rw [List.findIdx?_append, Option.map_or]
  cases h : f.range.contains bit <;> simp [List.findIdx?_cons, h]

lemma owner?_eq_none_of_firstField (h : firstField fields bit = none) :
    Coverage.owner? (fields.map (·.range)) bit = none := by
  rw [Coverage.owner?_eq_none_iff]
  simpa [firstField] using h

lemma exists_getElem_of_firstField (h : firstField fields bit = some position) :
    ∃ f, fields[position]? = some f ∧ f.range.contains bit = true ∧
      Coverage.owner? (fields.map (·.range)) bit = some f.range := by
  obtain ⟨hposition, hcontains, _⟩ := List.findIdx?_eq_some_iff_getElem.mp h
  refine ⟨fields[position], List.getElem?_eq_getElem hposition, hcontains, ?_⟩
  rw [Coverage.owner?, List.find?_map, List.find?_eq_bind_findIdx?_getElem?]
  unfold firstField at h
  simp [Function.comp_def, h, hposition]

/-- Bit fields that come first at some bit are the same if they have the same range. -/
lemma firstField_inj {bit' position' : Nat} {f f' : BitField}
    (h : firstField fields bit = some position) (h' : firstField fields bit' = some position')
    (hf : fields[position]? = some f) (hf' : fields[position']? = some f')
    (hrange : f.range = f'.range) : position = position' := by
  obtain ⟨hlt, hcontains, hfirst⟩ := List.findIdx?_eq_some_iff_getElem.mp h
  obtain ⟨hlt', hcontains', hfirst'⟩ := List.findIdx?_eq_some_iff_getElem.mp h'
  obtain rfl : fields[position] = f := by simpa [hlt] using hf
  obtain rfl : fields[position'] = f' := by simpa [hlt'] using hf'
  rcases Nat.lt_trichotomy position position' with hless | rfl | hless
  · exact absurd (hrange ▸ hcontains') (hfirst' position hless)
  · rfl
  · exact absurd (hrange ▸ hcontains) (hfirst position' hless)

/-! ### Claiming the bits of a bit field -/

/-- The owners that the bits of a list have among the ranges before, each once, without those told
of already. -/
def newOwners (earlier told : List BitRange) (bits : List Nat) : List BitRange :=
  ((bits.filterMap (Coverage.owner? earlier)).filter (· ∉ told)).eraseDups

section NewOwners

variable {earlier told : List BitRange} {bits : List Nat} {r : BitRange}

lemma newOwners_cons_of_none (h : Coverage.owner? earlier bit = none) :
    newOwners earlier told (bit :: bits) = newOwners earlier told bits := by
  simp [newOwners, h]

lemma newOwners_cons_of_mem (h : Coverage.owner? earlier bit = some r) (hr : r ∈ told) :
    newOwners earlier told (bit :: bits) = newOwners earlier told bits := by
  simp [newOwners, h, hr]

lemma newOwners_cons_of_notMem (h : Coverage.owner? earlier bit = some r) (hr : r ∉ told) :
    newOwners earlier told (bit :: bits) = r :: newOwners earlier (r :: told) bits := by
  simp [newOwners, h, hr, List.eraseDups_cons, List.filter_filter]
  rfl

end NewOwners

/-- What the scan of the bits of a bit field records, where the bits from `bit` on are left. -/
def scanProblems (size : Nat) (earlier told : List BitRange) (range : BitRange) (bit count : Nat) :
    List Coverage.Problem :=
  (newOwners earlier told (List.range' bit (min (bit + count) size - bit))).map (.overlap range) ++
    if 0 < count ∧ size < bit + count then [.outside range size] else []

section ScanProblems

variable {earlier told : List BitRange} {range r : BitRange} {size count : Nat}

lemma scanProblems_zero : scanProblems size earlier told range bit 0 = [] := by
  have hnone : min (bit + 0) size - bit = 0 := by omega
  rw [scanProblems, hnone, if_neg (by omega)]
  rfl

lemma scanProblems_of_le (h : size ≤ bit) :
    scanProblems size earlier told range bit (count + 1) = [.outside range size] := by
  have hnone : min (bit + (count + 1)) size - bit = 0 := by omega
  have hbeyond : 0 < count + 1 ∧ size < bit + (count + 1) := by omega
  rw [scanProblems, hnone, if_pos hbeyond]
  rfl

/-- A bit inside the register comes before the others that are left. -/
private lemma bits_eq_cons (h : bit < size) :
    List.range' bit (min (bit + (count + 1)) size - bit) =
      bit :: List.range' (bit + 1) (min (bit + 1 + count) size - (bit + 1)) := by
  rw [← List.range'_succ]
  congr 1
  omega

private lemma beyond_iff (h : bit < size) :
    (0 < count + 1 ∧ size < bit + (count + 1)) ↔ 0 < count ∧ size < bit + 1 + count := by
  omega

lemma scanProblems_of_none (h : bit < size) (howner : Coverage.owner? earlier bit = none) :
    scanProblems size earlier told range bit (count + 1) =
      scanProblems size earlier told range (bit + 1) count := by
  simp only [scanProblems, bits_eq_cons h, newOwners_cons_of_none howner, beyond_iff h]

lemma scanProblems_of_mem (h : bit < size) (howner : Coverage.owner? earlier bit = some r)
    (hr : r ∈ told) :
    scanProblems size earlier told range bit (count + 1) =
      scanProblems size earlier told range (bit + 1) count := by
  simp only [scanProblems, bits_eq_cons h, newOwners_cons_of_mem howner hr, beyond_iff h]

lemma scanProblems_of_notMem (h : bit < size) (howner : Coverage.owner? earlier bit = some r)
    (hr : r ∉ told) :
    scanProblems size earlier told range bit (count + 1) =
      .overlap range r :: scanProblems size earlier (r :: told) range (bit + 1) count := by
  simp only [scanProblems, bits_eq_cons h, newOwners_cons_of_notMem howner hr, beyond_iff h,
    List.map_cons, List.cons_append]

end ScanProblems

/-- The owner of a bit once the bits of a bit field up to `bound` are claimed. -/
def claimedUpTo (before : List BitField) (f : BitField) (bound bit : Nat) : Option Owner :=
  (firstOwner before bit).or
    (if f.range.lsb ≤ bit ∧ bit < bound then some (.field before.length) else none)

section Claims

variable {before after : List BitField} {f g : BitField} {size count : Nat}
  {reported : List Owner} {told : List BitRange}

/-- A bit without an owner is claimed. -/
lemma set_claimedUpTo (hbit : f.range.lsb ≤ bit) (h : firstField before bit = none) :
    (ownersBy size (claimedUpTo before f bit)).set bit (some (.field before.length)) =
      ownersBy size (claimedUpTo before f (bit + 1)) := by
  rw [set_ownersBy]
  apply ownersBy_congr
  intro other _
  by_cases heq : other = bit
  · subst heq
    simp [claimedUpTo, firstOwner, h, hbit]
  · have hlt : other < bit + 1 ↔ other < bit := by omega
    simp only [claimedUpTo, if_neg heq, hlt]

/-- A bit with an owner keeps it. -/
lemma ownersBy_claimedUpTo_succ (h : firstField before bit = some position) :
    ownersBy size (claimedUpTo before f bit) = ownersBy size (claimedUpTo before f (bit + 1)) := by
  apply ownersBy_congr
  intro other _
  by_cases heq : other = bit
  · subst heq
    simp [claimedUpTo, firstOwner, h]
  · have hlt : other < bit + 1 ↔ other < bit := by omega
    simp only [claimedUpTo, hlt]

/-- The register has no bits past its size. -/
lemma ownersBy_claimedUpTo_of_le (h : size ≤ bit) :
    ownersBy size (claimedUpTo before f bit) =
      ownersBy size (claimedUpTo before f (bit + count)) := by
  apply ownersBy_congr
  intro other hother
  have hlt : other < bit := Nat.lt_of_lt_of_le hother h
  have hlt' : other < bit + count := Nat.lt_add_right count hlt
  simp only [claimedUpTo, hlt, hlt']

/-- The owners that have been told of are those of the ranges in `told`. -/
def Told (before : List BitField) (reported : List Owner) (told : List BitRange) : Prop :=
  ∀ bit position g, firstField before bit = some position → before[position]? = some g →
    (Owner.field position ∈ reported ↔ g.range ∈ told)

lemma told_nil : Told before [] [] := by
  intro _ _ _ _ _
  simp

lemma Told.cons (h : Told before reported told) (hfirst : firstField before bit = some position)
    (hg : before[position]? = some g) :
    Told before (.field position :: reported) (g.range :: told) := by
  intro other position' g' hfirst' hg'
  rw [List.mem_cons, List.mem_cons, h other position' g' hfirst' hg']
  refine or_congr_left' fun _ => ⟨?_, fun hrange => ?_⟩
  · rintro ⟨⟩
    rw [hg] at hg'
    cases hg'
    rfl
  · rw [firstField_inj hfirst' hfirst hg' hg hrange]

/-- Claiming the bits of a bit field from a bit on records the problems of the scan. -/
lemma run_claimBits (hbit : f.range.lsb ≤ bit) (htold : Told before reported told) (c : Context) :
    (claimBits (before ++ f :: after) size before.length f.range (List.range' bit count)
        (ownersBy size (claimedUpTo before f bit)) reported).run c =
      .ok (ownersBy size (claimedUpTo before f (bit + count)))
        (c.record ((scanProblems size (before.map (·.range)) told f.range bit count).map
          fun problem => .constraint .register c.path problem.message)) := by
  -- Told of are the owners met so far, which the bits that are left may meet again.
  induction count generalizing bit reported told c with
  | zero => simp [claimBits, scanProblems_zero]
  | succ count ih =>
    rw [List.range'_succ, claimBits]
    by_cases hsize : size ≤ bit
    · rw [if_pos hsize, scanProblems_of_le hsize, ← ownersBy_claimedUpTo_of_le hsize]
      rfl
    have hlt : bit < size := Nat.lt_of_not_le hsize
    have hbit' : f.range.lsb ≤ bit + 1 := Nat.le_succ_of_le hbit
    have hadd : bit + (count + 1) = bit + 1 + count := by omega
    have hclaimed : claimedUpTo before f bit bit = firstOwner before bit := by
      simp [claimedUpTo]
    rw [if_neg hsize, hadd]
    simp only [EStateM.run_bind, run_item_ownersBy hlt, hclaimed, firstOwner]
    cases hfirst : firstField before bit with
    | none =>
      rw [scanProblems_of_none hlt (owner?_eq_none_of_firstField hfirst)]
      simp only [Option.map_none, set_claimedUpTo hbit hfirst]
      exact ih hbit' htold c
    | some position =>
      obtain ⟨g, hg, _, howner⟩ := exists_getElem_of_firstField hfirst
      have hmem := htold bit position g hfirst hg
      rw [ownersBy_claimedUpTo_succ hfirst]
      simp only [Option.map_some]
      by_cases hreported : Owner.field position ∈ reported
      · rw [if_pos hreported, scanProblems_of_mem hlt howner (hmem.mp hreported)]
        exact ih hbit' htold c
      · have hitem (c : Context) : (item (before ++ f :: after) position).run c = .ok g c := by
          rw [item, List.getElem?_append_left (List.getElem?_eq_some_iff.mp hg).1, hg]
          rfl
        rw [if_neg hreported, scanProblems_of_notMem hlt howner (mt hmem.mpr hreported)]
        simp only [EStateM.run_bind, hitem, run_recordConstraint, ih hbit' (htold.cons hfirst hg),
          Context.record_record, Context.path_record]
        rfl

end Claims

/-! ### Claiming bits for all bit fields -/

section Fields

variable {before after rest : List BitField} {f : BitField} {size : Nat} {owner : Nat → Option Owner}

lemma claimedUpTo_lsb : claimedUpTo before f f.range.lsb = firstOwner before := by
  funext bit
  have hnot : ¬ (f.range.lsb ≤ bit ∧ bit < f.range.lsb) := by omega
  rw [claimedUpTo, if_neg hnot, Option.or_none]

lemma lsb_add_width (r : BitRange) : r.lsb + r.width = r.msb + 1 := by
  have := r.lsb_le_msb
  unfold BitRange.width
  omega

lemma claimedUpTo_lsb_add_width :
    claimedUpTo before f (f.range.lsb + f.range.width) = firstOwner (before ++ [f]) := by
  funext bit
  rw [firstOwner_append, claimedUpTo, lsb_add_width]
  simp only [Nat.lt_succ_iff, ← contains_iff]

lemma scanProblems_lsb (earlier : List BitRange) (range : BitRange) :
    scanProblems size earlier [] range range.lsb range.width =
      Coverage.rangeProblems size earlier range := by
  have hbeyond : (0 < range.width ∧ size < range.msb + 1) ↔ size ≤ range.msb := by
    unfold BitRange.width
    omega
  unfold scanProblems Coverage.rangeProblems newOwners Coverage.bitsInside
  simp only [lsb_add_width, hbeyond, List.not_mem_nil, not_false_eq_true, decide_true,
    List.filter_true]

/-- Claiming the bits of bit fields records the problems of their ranges in turn. -/
lemma run_claimFields (c : Context) :
    (claimFields (before ++ rest) size before.length rest (ownersBy size (firstOwner before))).run c =
      .ok (ownersBy size (firstOwner (before ++ rest)))
        (c.record ((inTurn (Coverage.rangeProblems size) (before.map (·.range))
          (rest.map (·.range))).map fun problem =>
            .constraint .register c.path problem.message)) := by
  induction rest generalizing before c with
  | nil => simp [claimFields, inTurn]
  | cons f rest ih =>
    have hf : (claimBits (before ++ f :: rest) size before.length f.range f.range.bits
        (ownersBy size (claimedUpTo before f f.range.lsb)) []).run c = _ :=
      run_claimBits (Nat.le_refl f.range.lsb) told_nil c
    rw [claimedUpTo_lsb, claimedUpTo_lsb_add_width, scanProblems_lsb] at hf
    have hrest := @ih (before ++ [f])
    simp only [List.append_assoc, List.singleton_append, List.length_append, List.length_singleton,
      List.map_append, List.map_singleton] at hrest
    simp only [claimFields, EStateM.run_bind, hf, hrest]
    simp [inTurn]

/-- Bits that no one has claimed are claimed for refused bit fields. -/
lemma run_claimRefusedBits (bits : List Nat) (c : Context) :
    (claimRefusedBits size bits (ownersBy size owner)).run c =
      .ok (ownersBy size fun bit => (owner bit).or (if bit ∈ bits then some .refused else none))
        c := by
  induction bits generalizing owner with
  | nil => simp [claimRefusedBits]
  | cons bit bits ih =>
    unfold claimRefusedBits
    by_cases hlt : bit < size
    · rw [if_pos hlt]
      simp only [EStateM.run_bind, run_item_ownersBy hlt]
      cases howner : owner bit with
      | none =>
        rw [set_ownersBy, ih]
        congr 1
        apply ownersBy_congr
        intro other _
        by_cases heq : other = bit
        · subst heq
          simp [howner]
        · simp [heq]
      | some o =>
        rw [ih]
        congr 1
        apply ownersBy_congr
        intro other _
        by_cases heq : other = bit
        · subst heq
          simp [howner]
        · simp [heq]
    · rw [if_neg hlt, ih]
      congr 1
      apply ownersBy_congr
      intro other hother
      have hne : other ≠ bit := by omega
      simp [hne]

lemma mem_bits_iff {r : BitRange} : bit ∈ r.bits ↔ r.contains bit = true := by
  rw [BitRange.bits, List.mem_range'_1, lsb_add_width, contains_iff]
  omega

lemma run_claimRefused (ranges : List BitRange) (c : Context) :
    (claimRefused size ranges (ownersBy size owner)).run c =
      .ok (ownersBy size fun bit =>
        (owner bit).or (if ranges.any (·.contains bit) then some .refused else none)) c := by
  induction ranges generalizing owner with
  | nil => simp [claimRefused]
  | cons range ranges ih =>
    simp only [claimRefused, EStateM.run_bind, run_claimRefusedBits, ih, mem_bits_iff]
    congr 1
    apply ownersBy_congr
    intro bit _
    cases owner bit <;> cases h : range.contains bit <;> simp [h]

end Fields

/-! ### Bits without an owner -/

section Undefined

variable {lsb size : Nat} {owner : Nat → Option Owner} {above : List BitRange}

/-- Put the bits from `lsb` up to `bit`, which is not among them, before the runs from `bit` on. -/
def joined (lsb bit : Nat) (h : lsb < bit) : List BitRange → List BitRange
  | [] => [⟨bit - 1, lsb, by omega⟩]
  | run :: others =>
    if hrun : run.lsb = bit then ⟨run.msb, lsb, by have := run.lsb_le_msb; omega⟩ :: others
    else ⟨bit - 1, lsb, by omega⟩ :: run :: others

/-- The runs of bits without an owner among `count` bits. -/
def runsFrom (owner : Nat → Option Owner) (bit count : Nat) : List BitRange :=
  (List.range' bit count).foldr (Coverage.runs.extend fun bit => (owner bit).isNone) []

lemma runsFrom_succ_of_none {count : Nat} (h : owner bit = none) :
    runsFrom owner bit (count + 1) =
      joined bit (bit + 1) (Nat.lt_succ_self bit) (runsFrom owner (bit + 1) count) := by
  rw [runsFrom, List.range'_succ, List.foldr_cons, ← runsFrom]
  cases runsFrom owner (bit + 1) count <;> simp [Coverage.runs.extend, h, joined, BitRange.single]

lemma runsFrom_succ_of_some {count : Nat} {o : Owner} (h : owner bit = some o) :
    runsFrom owner bit (count + 1) = runsFrom owner (bit + 1) count := by
  rw [runsFrom, List.range'_succ, List.foldr_cons, ← runsFrom]
  simp [Coverage.runs.extend, h]

lemma le_lsb_of_mem_joined (h : lsb < bit) (habove : ∀ run ∈ above, lsb ≤ run.lsb) :
    ∀ run ∈ joined lsb bit h above, lsb ≤ run.lsb := by
  cases above with
  | nil => simp [joined]
  | cons run others =>
    rw [List.forall_mem_cons] at habove
    by_cases hrun : run.lsb = bit
    · simpa [joined, hrun] using habove.2
    · simpa [joined, hrun] using habove

lemma le_lsb_of_mem_runsFrom (owner : Nat → Option Owner) (bit count : Nat) :
    ∀ run ∈ runsFrom owner bit count, bit ≤ run.lsb := by
  induction count generalizing bit with
  | zero => simp [runsFrom]
  | succ count ih =>
    have hle : ∀ run ∈ runsFrom owner (bit + 1) count, bit ≤ run.lsb := fun run hrun =>
      Nat.le_of_succ_le (ih (bit + 1) run hrun)
    cases h : owner bit with
    | none =>
      rw [runsFrom_succ_of_none h]
      exact le_lsb_of_mem_joined _ hle
    | some o =>
      rw [runsFrom_succ_of_some h]
      exact hle

/-- Two neighbouring stretches of bits can be put before the runs at once. -/
lemma joined_joined (h : lsb < bit) :
    joined lsb bit h (joined bit (bit + 1) (Nat.lt_succ_self bit) above) =
      joined lsb (bit + 1) (Nat.lt_succ_of_lt h) above := by
  cases above with
  | nil => simp [joined]
  | cons run others =>
    by_cases hrun : run.lsb = bit + 1
    · simp [joined, hrun]
    · simp [joined, hrun]

/-- A run that no bit continues stands by itself. -/
lemma joined_of_lt (h : lsb < bit) (habove : ∀ run ∈ above, bit < run.lsb) :
    joined lsb bit h above = ⟨bit - 1, lsb, by omega⟩ :: above := by
  cases above with
  | nil => rfl
  | cons run others =>
    have hne : run.lsb ≠ bit := Nat.ne_of_gt (habove run List.mem_cons_self)
    simp [joined, hne]

lemma run_rangeOfBits (h : lsb < bit) (c : Context) :
    (rangeOfBits ((bit : Int) - 1) lsb).run c = .ok ⟨bit - 1, lsb, by omega⟩ c := by
  have hbits : BitRange.ofBits ((bit : Int) - 1) lsb = .ok ⟨bit - 1, lsb, by omega⟩ := by
    have hle : (0 : Int) ≤ lsb ∧ (lsb : Int) ≤ (bit : Int) - 1 := by omega
    have hmsb : ((bit : Int) - 1).toNat = bit - 1 := by omega
    simp [BitRange.ofBits, hle, hmsb]
  rw [rangeOfBits, hbits]
  rfl

/-- Going through owners gives the runs of bits without one, with the run that is open first. -/
lemma run_undefinedRanges (owner : Nat → Option Owner) (bit count : Nat) (c : Context) :
    (undefinedRanges bit ((List.range' bit count).map owner) none).run c =
        .ok (runsFrom owner bit count) c ∧
      ∀ lsb (h : lsb < bit),
        (undefinedRanges bit ((List.range' bit count).map owner) (some lsb)).run c =
          .ok (joined lsb bit h (runsFrom owner bit count)) c := by
  -- A free bit opens a run and a claimed one closes it, so both cases are needed at once.
  induction count generalizing bit with
  | zero =>
    refine ⟨rfl, fun lsb h => ?_⟩
    simp only [List.range'_zero, List.map_nil, undefinedRanges, EStateM.run_bind,
      run_rangeOfBits h]
    rfl
  | succ count ih =>
    obtain ⟨hclosed, hopen⟩ := ih (bit + 1)
    rw [List.range'_succ, List.map_cons]
    cases howner : owner bit with
    | none =>
      rw [runsFrom_succ_of_none howner]
      refine ⟨hopen bit (Nat.lt_succ_self bit), fun lsb h => ?_⟩
      rw [joined_joined h]
      exact hopen lsb (Nat.lt_succ_of_lt h)
    | some o =>
      rw [runsFrom_succ_of_some howner]
      refine ⟨hclosed, fun lsb h => ?_⟩
      rw [joined_of_lt h (le_lsb_of_mem_runsFrom owner (bit + 1) count)]
      simp only [undefinedRanges, EStateM.run_bind, run_rangeOfBits h, hclosed]
      rfl

/-- The runs of bits without an owner are those of the bits that no range covers. -/
lemma run_recordUndefined {ranges : List BitRange}
    (howner : ∀ bit, (owner bit).isNone = (Coverage.owner? ranges bit).isNone) (c : Context) :
    (recordUndefined (ownersBy size owner)).run c =
      .ok () (c.record ((Coverage.undefinedProblems size ranges).map fun problem =>
        .constraint .register c.path problem.message)) := by
  have hruns : (undefinedRanges 0 (ownersBy size owner) none).run c =
      .ok (Coverage.runs (fun bit => (Coverage.owner? ranges bit).isNone) size) c := by
    rw [ownersBy, Coverage.runs, List.range_eq_range', (run_undefinedRanges owner 0 size c).1]
    simp only [runsFrom, howner]
  simp only [recordUndefined, Coverage.undefinedProblems, EStateM.run_bind, hruns]
  cases Coverage.runs (fun bit => (Coverage.owner? ranges bit).isNone) size with
  | nil => simp
  | cons run others => rfl

end Undefined

/-! ### The check -/

lemma firstOwner_nil : firstOwner [] = fun _ => none := rfl

lemma ownersBy_firstOwner_nil (size : Nat) :
    ownersBy size (firstOwner []) = .replicate size none := by
  simp [ownersBy, firstOwner_nil, List.map_const']

/-- A bit has no owner at the end if no range covers it. -/
lemma isNone_owner (fields : List BitField) (refused : List BitRange) (bit : Nat) :
    ((firstOwner fields bit).or
        (if refused.any (·.contains bit) then some .refused else none)).isNone =
      (Coverage.owner? (fields.map (·.range) ++ refused) bit).isNone := by
  have hrefused : (if refused.any (·.contains bit) then some Owner.refused else none) = none ↔
      ∀ r ∈ refused, r.contains bit = false := by
    simp
  rw [Bool.eq_iff_iff, Option.isNone_iff_eq_none, Option.isNone_iff_eq_none,
    Option.or_eq_none_iff, hrefused, Coverage.owner?_eq_none_iff]
  simp [firstOwner, firstField, or_imp, forall_and]

/-- The check of the bit fields of a register records what the check of its coverage finds. -/
lemma run_checkBitFields (r : Register) (refused : Option (List BitRange)) (c : Context) :
    (checkBitFields r refused).run c =
      .ok () (c.record (Coverage.diagnostics c.path r refused)) := by
  have hfields := @run_claimFields [] r.bitFields r.size.bits c
  rw [ownersBy_firstOwner_nil] at hfields
  simp only [List.nil_append, List.length_nil, List.map_nil] at hfields
  simp only [checkBitFields, Coverage.diagnostics, Coverage.problems, EStateM.run_bind, hfields]
  cases refused with
  | none => simp
  | some ranges =>
    simp only [EStateM.run_bind, run_claimRefused, run_recordUndefined (isNone_owner r.bitFields ranges),
      Context.path_record, Context.record_record, List.map_append]

end RegisterMap.Procedure
