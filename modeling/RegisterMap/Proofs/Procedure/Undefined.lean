import RegisterMap.Proofs.Grammar.Register
import RegisterMap.Proofs.RangeText
import RegisterMap.Proofs.Runs

/-!
# The undefined bits that are recorded

A register whose table is accepted may have bits that neither an accepted bit field nor a refused
one covers. If the range of every refused bit field can be made out, these bits are recorded at
once, by their maximal runs. If not, nothing is said of them, since the refused bit field may be
what covers them.
-/

namespace RegisterMap

open Procedure

variable {path : Path} {size : Nat}

/-- What may fail on an item succeeds on a list if it succeeds on every item. -/
lemma mapM_eq_some_iff {α β : Type} {f : α → Option β} {as : List α} {bs : List β} :
    as.mapM f = some bs ↔ List.Forall₂ (fun a b => f a = some b) as bs := by
  induction as generalizing bs with
  | nil => simp [eq_comm]
  | cons a as ih =>
    cases bs with
    | nil => cases h : f a <;> simp [h, Option.bind_eq_some_iff]
    | cons b bs =>
      rw [List.forall₂_cons, ← ih]
      cases h : f a <;> simp [h, Option.bind_eq_some_iff, and_comm]

/-! ### Ranges of refused bit fields -/

/-- The text of a table names a range, possibly by the redundant spelling of a single bit. -/
def BitRange.LooselyMirrors (t : Table) (range : BitRange) : Prop :=
  ∃ text, t.get? "bit" = some (.text text) ∧ read text false = .ok range

namespace BitField

lemma refusedRange?_eq_some_iff {t : Table} {range : BitRange} :
    refusedRange? t = some range ↔ range.LooselyMirrors t := by
  unfold refusedRange? BitRange.LooselyMirrors
  cases hbit : t.get? "bit" with
  | none => simp
  | some value =>
    cases value with
    | text text => cases hread : BitRange.read text false <;> simp [hread, Except.toOption]
    | _ => simp

/-- The ranges of refused bit fields are those that their tables name. -/
lemma mem_refusedRanges? {ts : List Table} {others : List BitRange}
    (h : refusedRanges? ts = some others) {range : BitRange} :
    range ∈ others ↔ ∃ t ∈ ts, range.LooselyMirrors t := by
  rw [refusedRanges?, mapM_eq_some_iff] at h
  simp only [← refusedRange?_eq_some_iff]
  constructor
  · exact exists_of_forall₂_of_mem h
  · rintro ⟨t, ht, hrange⟩
    obtain ⟨other, hother, hsome⟩ := exists_of_mem_of_forall₂ h ht
    rw [hrange] at hsome
    rwa [Option.some.inj hsome]

lemma exists_refusedRanges?_iff {ts : List Table} :
    (∃ others, refusedRanges? ts = some others) ↔
      ∀ t ∈ ts, ∃ range : BitRange, range.LooselyMirrors t := by
  simp only [refusedRanges?, mapM_eq_some_iff, ← refusedRange?_eq_some_iff]
  induction ts with
  | nil => exact ⟨fun _ => by simp, fun _ => ⟨[], .nil⟩⟩
  | cons t ts ih =>
    rw [List.forall_mem_cons, ← ih]
    constructor
    · rintro ⟨_, hall⟩
      cases hall with
      | cons hrange hranges => exact ⟨⟨_, hrange⟩, _, hranges⟩
    · rintro ⟨⟨range, hrange⟩, ranges, hranges⟩
      exact ⟨range :: ranges, .cons hrange hranges⟩

end BitField

namespace Coverage

/-! ### Messages of undefined bits -/

/-- What is told of the undefined bits of a register by their runs: by a run of a single bit, by one
of more bits, and by several. -/
def undefinedText : List BitRange → String
  | [run] =>
    if run.lsb = run.msb then s!"register bit '{run.msb}' is undefined"
    else s!"some register bits are undefined, '{run.msb}:{run.lsb}'"
  | runs =>
    "some register bits are undefined, " ++
      String.intercalate ", " (runs.map fun run => s!"'{run.spelled}'")

lemma message_undefined (runs : List BitRange) :
    (Problem.undefined runs).message = undefinedText runs := by
  have hrun (run : BitRange) : s!"'{run}'" = s!"'{run.spelled}'" := by
    rw [← BitRange.text_eq_spelled]
    rfl
  match runs with
  | [run] =>
    have hmessage : (Problem.undefined [run]).message =
      if run.isSingle then s!"register bit '{run.text}' is undefined"
      else s!"some register bits are undefined, '{run.text}'" := rfl
    simp only [hmessage, undefinedText, BitRange.isSingle_iff, BitRange.text_eq_spelled]
    split_ifs with hsingle
    · rw [BitRange.spelled, if_pos hsingle]
      rfl
    · rw [BitRange.spelled, if_neg hsingle]
      rfl
  | [] => rfl
  | run :: next :: runs =>
    have hmessage : (Problem.undefined (run :: next :: runs)).message =
      "some register bits are undefined, " ++
        String.intercalate ", " ((run :: next :: runs).map fun run => s!"'{run}'") := rfl
    simp only [hmessage, hrun]
    rfl

/-- The words with which a message of undefined bits begins: for one bit, and for more. -/
def undefinedWords : List String := ["register bit '", "some register bits are undefined"]

/-- Whether a diagnostic tells that bits of a register are undefined. -/
def reportsUndefined (d : Diagnostic) : Bool :=
  d.kind == .constraint && d.table == .register &&
    undefinedWords.any fun words => decide (words.toList <+: d.message.toList)

def undefinedAmong (ds : List Diagnostic) : List Diagnostic := ds.filter reportsUndefined

lemma undefinedAmong_append (ds es : List Diagnostic) :
    undefinedAmong (ds ++ es) = undefinedAmong ds ++ undefinedAmong es := List.filter_append _ _

/-- Undefined bits would be a reason to refuse a register. -/
lemma undefinedAmong_eq_nil {ds : List Diagnostic} (h : Diagnostic.reasons .register ds = []) :
    undefinedAmong ds = [] := by
  rw [Diagnostic.reasons, List.filter_eq_nil_iff] at h
  rw [undefinedAmong, List.filter_eq_nil_iff]
  intro d hd hreports
  refine h d hd ?_
  simp only [reportsUndefined, Bool.and_eq_true, beq_iff_eq] at hreports
  obtain ⟨⟨hkind, htable⟩, _⟩ := hreports
  simp [Diagnostic.isReason, hkind, htable]

/-- The messages of other problems begin with another letter. -/
lemma reportsUndefined_eq_false {message : String} (h : message.toList.head? = some 'b') :
    reportsUndefined (.constraint .register path message) = false := by
  have hfirst : ∀ words ∈ undefinedWords, ∃ c ∈ words.toList.head?, c ≠ 'b' := by
    simp [undefinedWords]
  have hwords : ∀ words ∈ undefinedWords, ¬ words.toList <+: message.toList := by
    rintro words hmem ⟨rest, hmessage⟩
    obtain ⟨c, hc, hne⟩ := hfirst words hmem
    rw [← hmessage, List.head?_append, hc, Option.some_or, Option.some.injEq] at h
    exact hne h
  have hany : undefinedWords.any (fun words => decide (words.toList <+: message.toList)) = false :=
    List.any_eq_false.mpr fun words hmem => by simpa using hwords words hmem
  rw [reportsUndefined, Diagnostic.constraint, hany, Bool.and_false]

def Problem.isUndefined : Problem → Bool
  | .undefined _ => true
  | _ => false

lemma reportsUndefined_of_words {words message : String} {rest : List Char}
    (hwords : words ∈ undefinedWords) (h : message.toList = words.toList ++ rest) :
    reportsUndefined (.constraint .register path message) = true := by
  have hprefix : words.toList <+: message.toList := h ▸ List.prefix_append _ _
  have hany : undefinedWords.any (fun words => decide (words.toList <+: message.toList)) = true :=
    List.any_eq_true.mpr ⟨words, hwords, decide_eq_true hprefix⟩
  rw [reportsUndefined, Diagnostic.constraint, hany]
  rfl

lemma reportsUndefined_undefined (runs : List BitRange) :
    reportsUndefined (.constraint .register path (Problem.undefined runs).message) = true := by
  have hsome : "some register bits are undefined" ∈ undefinedWords := by
    simp [undefinedWords]
  have hmany (list : String) : ("some register bits are undefined, " ++ list).toList =
      "some register bits are undefined".toList ++ (", " ++ list).toList := by
    simp
  rw [message_undefined]
  -- One run by itself has its own messages, with other words still if it is a single bit.
  match runs with
  | [run] =>
    have hbit : s!"register bit '{run.msb}' is undefined".toList =
        "register bit '".toList ++ s!"{run.msb}' is undefined".toList := by
      simp [toString]
    have hbits : s!"some register bits are undefined, '{run.msb}:{run.lsb}'".toList =
        "some register bits are undefined".toList ++ s!", '{run.msb}:{run.lsb}'".toList := by
      simp [toString]
    rw [undefinedText]
    split_ifs
    · exact reportsUndefined_of_words List.mem_cons_self hbit
    · exact reportsUndefined_of_words hsome hbits
  | [] => exact reportsUndefined_of_words hsome (hmany _)
  | _ :: _ :: _ => exact reportsUndefined_of_words hsome (hmany _)

lemma reportsUndefined_problem (p : Problem) :
    reportsUndefined (.constraint .register path p.message) = p.isUndefined := by
  cases p with
  | overlap range owner =>
    have hmessage : (Problem.overlap range owner).message =
      s!"bit field range '{range}' overlaps with another bit field '{owner}'" := rfl
    exact reportsUndefined_eq_false (by simp [hmessage, toString])
  | outside range size =>
    have hmessage : (Problem.outside range size).message =
      s!"bit field range '{range}' is not inside register bounds, register size: {size}" := rfl
    exact reportsUndefined_eq_false (by simp [hmessage, toString])
  | undefined runs => exact reportsUndefined_undefined runs

/-! ### Undefined bits among the diagnostics -/

lemma undefinedAmong_problems (problems : List Problem) :
    undefinedAmong (problems.map fun p => .constraint .register path p.message) =
      (problems.filter Problem.isUndefined).map fun p => .constraint .register path p.message := by
  rw [undefinedAmong, List.filter_map]
  simp only [Function.comp_def, reportsUndefined_problem]

lemma filter_isUndefined_problems (ranges : List BitRange) (refused : Option (List BitRange)) :
    (problems size ranges refused).filter Problem.isUndefined =
      (refused.map fun others => undefinedProblems size (ranges ++ others)).getD [] := by
  have hranges : (inTurn (rangeProblems size) [] ranges).filter Problem.isUndefined = [] := by
    rw [List.filter_eq_nil_iff]
    intro p hp
    obtain ⟨_, range, _, _, hp⟩ := mem_inTurn_iff.mp hp
    rcases List.mem_append.mp hp with hp | hp
    · obtain ⟨_, _, rfl⟩ := List.mem_map.mp hp
      simp [Problem.isUndefined]
    · split_ifs at hp
      · rw [List.mem_singleton.mp hp]
        simp [Problem.isUndefined]
      · cases hp
  have hundefined (others : List BitRange) : (undefinedProblems size others).filter
      Problem.isUndefined = undefinedProblems size others := by
    unfold undefinedProblems
    split <;> simp [Problem.isUndefined]
  rw [problems.eq_def, List.filter_append, hranges]
  cases refused <;> simp [hundefined]

lemma undefinedAmong_fieldNameProblems (r : Register) :
    undefinedAmong (r.fieldNameProblems path) = [] := by
  rw [undefinedAmong, List.filter_eq_nil_iff, Register.fieldNameProblems, List.forall_mem_map]
  intro names _
  rw [reportsUndefined_eq_false (by simp [toString])]
  exact Bool.false_ne_true

/-- What is recorded of undefined bits when the parts of a register are fitted together. -/
lemma undefinedAmong_settle (r : Register) (refused : Option (List BitRange)) :
    undefinedAmong (r.settle path refused).report.diagnostics =
      ((refused.map fun others => undefinedProblems r.size.bits
        (r.bitFields.map (·.range) ++ others)).getD []).map fun p =>
          .constraint .register path p.message := by
  -- What is wrong with an enumeration is told of its own table, not of the register.
  have henums : undefinedAmong (RegisterEnum.settleAll path r.bitFields refused
      r.enums).report.diagnostics = [] := by
    apply undefinedAmong_eq_nil
    rw [RegisterEnum.settleAll_diagnostics, inTurn_eq_flatMap, Diagnostic.reasons,
      List.filter_flatMap, List.flatMap_eq_nil_iff]
    intro i _
    rw [← Diagnostic.reasons, RegisterEnum.settle]
    cases RegisterEnum.matchField r.bitFields refused (r.enums.take i) (r.enums.get i) <;>
      simp [Diagnostic.reasons, Diagnostic.isReason, Diagnostic.constraint]
  rw [Register.settle, Report.diagnostics_append, Report.diagnostics_append,
    Report.diagnostics_ofDiagnostics, Report.diagnostics_ofDiagnostics, undefinedAmong_append,
    undefinedAmong_append, undefinedAmong_fieldNameProblems, henums, diagnostics,
    undefinedAmong_problems, filter_isUndefined_problems, List.append_nil, List.append_nil]

end Coverage

namespace Procedure

open Coverage

variable {r : Register} {refused : List Table} {ds : List Diagnostic}

/-! ### The undefined bits of a register -/

/-- The tables that are refused as bit fields. -/
def refusedFields (fields : List Table) : List Table :=
  fields.filter fun u => (acceptedAs? checkBitField u).isNone

/-- A bit of a register that no bit field covers, nor the range of a refused one. -/
structure IsUncovered (r : Register) (refused : List Table) (bit : Nat) : Prop where
  lt_size : bit < r.size.bits
  not_field : ∀ f ∈ r.bitFields, f.range.contains bit = false
  not_refused : ∀ u ∈ refused, ∀ range : BitRange, range.LooselyMirrors u →
    range.contains bit = false

/-- What is told of the undefined bits of a register, among diagnostics. A refused bit field whose
range cannot be made out may cover any bit. -/
structure TellsUndefined (path : Path) (r : Register) (refused : List Table)
    (ds : List Diagnostic) : Prop where
  of_unreadable : (∃ u ∈ refused, ∀ range : BitRange, ¬ range.LooselyMirrors u) →
    undefinedAmong ds = []
  of_covered : (∀ u ∈ refused, ∃ range : BitRange, range.LooselyMirrors u) →
    (∀ bit, ¬ IsUncovered r refused bit) → undefinedAmong ds = []
  of_uncovered : (∀ u ∈ refused, ∃ range : BitRange, range.LooselyMirrors u) →
    (∃ bit, IsUncovered r refused bit) →
      ∃ runs, ListsRuns (IsUncovered r refused) runs ∧
        undefinedAmong ds = [⟨.constraint, .register, path, none, undefinedText runs⟩]

/-- The bits that are uncovered are those without an owner. -/
lemma isUncovered_iff {others : List BitRange} (h : BitField.refusedRanges? refused = some others)
    {bit : Nat} : IsUncovered r refused bit ↔ bit < r.size.bits ∧
      (owner? (r.bitFields.map (·.range) ++ others) bit).isNone = true := by
  rw [Option.isNone_iff_eq_none, owner?_eq_none_iff, List.forall_mem_append, List.forall_mem_map]
  simp only [BitField.mem_refusedRanges? h]
  constructor
  · rintro ⟨hsize, hfields, hrefused⟩
    exact ⟨hsize, hfields, fun range ⟨u, hu, hrange⟩ => hrefused u hu range hrange⟩
  · rintro ⟨hsize, hfields, hrefused⟩
    exact ⟨hsize, hfields, fun u hu range hrange => hrefused range ⟨u, hu, hrange⟩⟩

/-- The undefined bits are told as they are found when the parts of the register are fitted
together. -/
lemma tellsUndefined_of_eq
    (h : undefinedAmong ds = (((BitField.refusedRanges? refused).map fun others =>
      undefinedProblems r.size.bits (r.bitFields.map (·.range) ++ others)).getD []).map fun p =>
        .constraint .register path p.message) : TellsUndefined path r refused ds := by
  have hseparates {others : List BitRange} (h : BitField.refusedRanges? refused = some others) :
      SeparatesRuns (IsUncovered r refused)
        (runs (fun bit => (owner? (r.bitFields.map (·.range) ++ others) bit).isNone)
          r.size.bits) := by
    rw [show IsUncovered r refused = _ from funext fun _ => propext (isUncovered_iff h)]
    exact separatesRuns_runs _ _
  constructor
  case of_unreadable =>
    rintro ⟨u, hu, hnone⟩
    have hranges : BitField.refusedRanges? refused = none := by
      rw [Option.eq_none_iff_forall_ne_some]
      intro others hothers
      obtain ⟨range, hrange⟩ := BitField.exists_refusedRanges?_iff.mp ⟨others, hothers⟩ u hu
      exact hnone range hrange
    rw [h, hranges]
    rfl
  case of_covered =>
    intro hreadable hcovered
    obtain ⟨others, hothers⟩ := BitField.exists_refusedRanges?_iff.mpr hreadable
    have hruns := (hseparates hothers).eq_nil_iff.mpr hcovered
    rw [h, hothers, Option.map_some, undefinedProblems_eq, if_pos hruns]
    rfl
  case of_uncovered =>
    rintro hreadable ⟨bit, hbit⟩
    obtain ⟨others, hothers⟩ := BitField.exists_refusedRanges?_iff.mpr hreadable
    have hruns := mt (hseparates hothers).eq_nil_iff.mp fun hnone => hnone bit hbit
    refine ⟨_, (hseparates hothers).listsRuns, ?_⟩
    rw [h, hothers, Option.map_some, undefinedProblems_eq, if_neg hruns, ← message_undefined]
    rfl

/-- Of what is reported on a table that is accepted, only the fitting together of the parts tells of
undefined bits: unknown keys are no reason to refuse a register, nor is what is wrong with the
tables of its parts. -/
lemma undefinedAmong_check {d : Description} {t : Table} {kind : LocationKind}
    {fields : List Table} {enums : Option (List Table)} {described : Register}
    (hname : t.name "name" = .valid described.name)
    (hkinds : Placement.locatingKinds d t = [kind])
    (h : Register.Usable d (Register.inside path described.name) t kind fields enums described) :
    undefinedAmong (Register.check d path t).report.diagnostics =
      undefinedAmong (described.settle (Register.inside path described.name)
        (BitField.refusedRanges? (refusedFields fields))).report.diagnostics := by
  have hfields (inner : Path) : Diagnostic.reasons .register
      (CheckedList.ofTables (BitField.check inner) fields).report.diagnostics = [] :=
    CheckedList.reasons_eq_nil fun _ => BitField.reasons_check_of_ne (by decide)
  have henums (inner : Path) : Diagnostic.reasons .register
      (CheckedList.ofTables (RegisterEnum.check inner) (enums.getD [])).report.diagnostics = [] :=
    CheckedList.reasons_eq_nil fun _ => RegisterEnum.reasons_check_of_ne (by decide) (by decide)
  rw [(Register.check_of_usable hname hkinds h).2, undefinedAmong_append, undefinedAmong_append,
    undefinedAmong_append, undefinedAmong_eq_nil Table.reasons_unknownKeyProblems,
    undefinedAmong_eq_nil (hfields _), undefinedAmong_eq_nil (henums _),
    checkBitField_follows.refused_eq BitField.check_outcome_eq_some_iff_writtenAs]
  rfl

/-- What is recorded of the undefined bits of a register whose table is accepted. The bits that no
accepted bit field covers, nor the range of a refused one, are told by a single diagnostic, which
lists their maximal runs from the lowest upwards. There is none if no bit is left, or if the range
of some refused bit field cannot be made out. -/
theorem checkRegister_undefined {d : Description} {t : Table} {c c' : Context} {r : Register}
    (h : (checkRegister d t).run c = .ok r c') :
    ∃ fields ds, t.get? "bit_fields" = some (.array (fields.map .table)) ∧
      r.bitFields = fields.filterMap (acceptedAs? checkBitField) ∧
      c' = ⟨c.scopes, c.diagnostics ++ ds⟩ ∧
      TellsUndefined (c.path ++ [s!"register '{r.name}'"]) r (refusedFields fields) ds := by
  obtain ⟨hsome, hcontext⟩ := (checkRegister_follows d).run_eq_ok_iff.mp h
  obtain ⟨kind, fields, enums, described, hname, hkinds, husable⟩ :=
    Register.exists_usable_of_check hsome
  have houtcome := (Register.check_of_usable hname hkinds husable).1
  rw [hsome, Option.some.injEq] at houtcome
  obtain ⟨_, _, _, _, _, ⟨hfields, hbitFields⟩, _⟩ := Register.usable_iff.mp husable
  refine ⟨fields, _, hfields, houtcome ▸ hbitFields, hcontext, ?_⟩
  apply tellsUndefined_of_eq
  rw [undefinedAmong_check hname hkinds husable, undefinedAmong_settle, houtcome]
  rfl

def plainDescription : Description :=
  ⟨"chip", .version01, none, none, some .size8, some .readWrite, .size64, none⟩

/-- A table with a bit field that is refused for its spelling. -/
def gapTable : Table :=
  [("name", .text "status"), ("absolute_address", .integer 0), ("bit_fields", .array
    [.table [("bit", .text "0"), ("name", .text "ready")],
     .table [("bit", .text "3:3"), ("name", .text "mode")]])]

def gapRegister : Register :=
  { name := "status", access := .readWrite, size := .size8, readLocation := ⟨.absolute, 0⟩,
    writeLocation := ⟨.absolute, 0⟩, bitFields := [⟨.single 0, some "ready", none⟩], enums := [],
    description := none, slot := none }

/-- The context after the check, with a diagnostic for the spelling and one for the undefined bits,
which lie on both sides of the refused bit field. -/
def gapContext : Context :=
  ⟨[], [.invalidValue .bitField ["register 'status'"] "bit"
      "unnecessary range syntax, change '3:3' to '3'",
    .constraint .register ["register 'status'"]
      "some register bits are undefined, '2:1', '7:4'"]⟩

/-- The undefined bits on both sides of a refused bit field are told as two runs. -/
theorem checkRegister_undefined_gapTable :
    (checkRegister plainDescription gapTable).run .empty = .ok gapRegister gapContext ∧
      ∃ fields ds, gapTable.get? "bit_fields" = some (.array (fields.map .table)) ∧
        gapRegister.bitFields = fields.filterMap (acceptedAs? checkBitField) ∧
        gapContext = ⟨[], ds⟩ ∧
        TellsUndefined ["register 'status'"] gapRegister (refusedFields fields) ds := by
  have hrun : (checkRegister plainDescription gapTable).run .empty =
      .ok gapRegister gapContext := rfl
  exact ⟨hrun, checkRegister_undefined hrun⟩

end Procedure

end RegisterMap
