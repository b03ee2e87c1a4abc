import RegisterMap.Proofs.Name.Pattern
import RegisterMap.Proofs.Name.Style

/-!
# Splitting names into words

Splitting a name into words loses nothing but underscores and invents nothing. The words stand in
the name one after the other, and each looks like what an alternative of their pattern matches.
-/

namespace RegisterMap.Name

open Text (Match)

open Text.Pattern

variable {p : Char → Bool} {c : Char} {cs : List Char} {m : Match} {name : String}

/-! ### What words look like -/

/-- Capitals with perhaps digits after them, or small letters with perhaps a capital before and
digits after them, or digits. -/
inductive HasWordShape : List Char → Prop
  | capitals {run digits : List Char} (hne : run ≠ [])
      (hrun : ∀ c ∈ run, c.isUpper = true) (hdigits : ∀ c ∈ digits, c.isDigit = true) :
      HasWordShape (run ++ digits)
  | smallLetters {capital : Option Char} {run digits : List Char}
      (hcapital : ∀ c, capital = some c → c.isUpper = true) (hne : run ≠ [])
      (hrun : ∀ c ∈ run, c.isLower = true) (hdigits : ∀ c ∈ digits, c.isDigit = true) :
      HasWordShape (capital.toList ++ run ++ digits)
  | digits {run : List Char} (hne : run ≠ []) (hrun : ∀ c ∈ run, c.isDigit = true) :
      HasWordShape run

lemma exists_of_mem_ways_letters (h : m ∈ (letters p).ways cs) :
    ∃ run digits, m.taken = run ++ digits ∧ run ≠ [] ∧ (∀ c ∈ run, p c = true) ∧
      ∀ c ∈ digits, c.isDigit = true := by
  obtain ⟨x, hx, y, hy, rfl⟩ := mem_ways_seq_iff.mp h
  obtain ⟨hne, hrun⟩ := of_mem_ways_many1 hx
  exact ⟨x.taken, y.taken, rfl, hne, hrun, forall_mem_taken_of_mem_ways_many hy⟩

lemma exists_of_mem_ways_capital (h : m ∈ (optional (char Char.isUpper)).ways cs) :
    ∃ capital : Option Char, m.taken = capital.toList ∧
      ∀ c, capital = some c → c.isUpper = true := by
  rcases mem_ways_alt_iff.mp h with h | h
  · obtain ⟨c, hc, htaken⟩ := exists_taken_eq_of_mem_ways_char h
    refine ⟨some c, htaken, ?_⟩
    rintro _ ⟨⟩
    exact hc
  · cases List.mem_singleton.mp h
    exact ⟨none, rfl, by simp⟩

/-- Whatever an alternative of the pattern matches looks like a word. -/
lemma hasWordShape_of_mem_ways (h : m ∈ wordPattern.ways cs) : HasWordShape m.taken := by
  simp only [wordPattern, mem_ways_alt_iff] at h
  rcases h with hacronym | hsmall | hcapitals | hdigits
  · obtain ⟨x, hx, y, hy, rfl⟩ := mem_ways_seq_iff.mp hacronym
    obtain ⟨hne, hrun⟩ := of_mem_ways_many1 hx
    rw [Match.taken_after, taken_eq_nil_of_mem_ways_before hy]
    exact .capitals hne hrun (by simp)
  · obtain ⟨x, hx, y, hy, rfl⟩ := mem_ways_seq_iff.mp hsmall
    obtain ⟨capital, hx, hcapital⟩ := exists_of_mem_ways_capital hx
    obtain ⟨run, digits, hy, hne, hrun, hdigits⟩ := exists_of_mem_ways_letters hy
    rw [Match.taken_after, hx, hy, ← List.append_assoc]
    exact .smallLetters hcapital hne hrun hdigits
  · obtain ⟨run, digits, heq, hne, hrun, hdigits⟩ := exists_of_mem_ways_letters hcapitals
    rw [heq]
    exact .capitals hne hrun hdigits
  · obtain ⟨hne, hrun⟩ := of_mem_ways_many1 hdigits
    exact .digits hne hrun

lemma hasWordShape_of_mem_words (cs : List Char) : ∀ w ∈ words cs, HasWordShape w := by
  induction cs using words_induction with
  | nil => simp
  | gap c cs _ ih => exact ih
  | word cs m hfirst ih =>
    exact List.forall_mem_cons.mpr ⟨hasWordShape_of_mem_ways (List.mem_of_head? hfirst), ih⟩

/-! ### Where words stand -/

/-- Words stand in a text one after the other, with nothing but underscores around them. -/
inductive StandIn : List (List Char) → List Char → Prop
  | nil : StandIn [] []
  | underscore {ws : List (List Char)} {cs : List Char} (h : StandIn ws cs) : StandIn ws ('_' :: cs)
  | word {ws : List (List Char)} {cs : List Char} (w : List Char) (h : StandIn ws cs) :
      StandIn (w :: ws) (w ++ cs)

lemma words_standIn (h : ∀ c ∈ cs, isFollowing c = true) : StandIn (words cs) cs := by
  induction cs using words_induction with
  | nil => exact .nil
  | gap c cs hc ih =>
    obtain ⟨hfollowing, hcs⟩ := List.forall_mem_cons.mp h
    rw [(isAlphanum_eq_false_iff hfollowing).mp hc]
    exact .underscore (ih hcs)
  | word cs m hfirst ih =>
    rw [← append_of_first? hfirst] at h ⊢
    exact .word m.taken (ih (List.forall_mem_append.mp h).2)

lemma flatten_words_eq_filter (h : ∀ c ∈ cs, isFollowing c = true) :
    (words cs).flatten = cs.filter (· ≠ '_') := by
  rw [flatten_words]
  refine List.filter_congr fun c hc => ?_
  rw [Bool.eq_iff_iff, decide_eq_true_iff, ne_eq, ← isAlphanum_eq_false_iff (h c hc),
    Bool.not_eq_false]

/-! ### Nothing is lost -/

/-- The words of a name are the matches of their pattern in it. They hold its letters and digits in
order and stand in it with nothing but underscores around them, so that the words before an
underscore are apart from those after it. Each word is a run of capitals or of small letters, the
latter perhaps with a capital before and both perhaps with digits after them, or a run of digits,
and only a name of underscores has no words. -/
theorem words_lossless (h : isWord name.toList = true) :
    words name.toList = wordPattern.findAll name.toList ∧
    (∀ w ∈ words name.toList, w ≠ [] ∧ ∀ c ∈ w, c.isAlphanum = true) ∧
    (words name.toList).flatten = name.toList.filter (· ≠ '_') ∧
    StandIn (words name.toList) name.toList ∧
    (∀ front back, name.toList = front ++ '_' :: back →
      words name.toList = words front ++ words back) ∧
    (∀ w ∈ words name.toList, HasWordShape w) ∧
    (words name.toList = [] ↔ ∀ c ∈ name.toList, c = '_') := by
  have hfollowing := isFollowing_of_isWord h
  refine ⟨(findAll_wordPattern _).symm, fun w hw => ?_, flatten_words_eq_filter hfollowing,
    words_standIn hfollowing, fun front back heq => ?_, hasWordShape_of_mem_words _, ?_⟩
  · have hlike := isWordLike_of_mem_words hw
    exact ⟨hlike.ne_nil, hlike.isAlphanum⟩
  · rw [heq, words_append_underscore]
  · rw [words_eq_nil_iff]
    exact forall₂_congr fun c hc => isAlphanum_eq_false_iff (hfollowing c hc)

/-- A name with an acronym, capitalized words, digits and underscores. -/
theorem words_lossless_spiRxFIFOLevel :
    isWord "_spiRxFIFOLevel_8bit".toList = true ∧
      wordPattern.findAll "_spiRxFIFOLevel_8bit".toList =
        ["spi", "Rx", "FIFO", "Level", "8", "bit"].map String.toList ∧
      (["spi", "Rx", "FIFO", "Level", "8", "bit"].map String.toList).flatten =
        "_spiRxFIFOLevel_8bit".toList.filter (· ≠ '_') ∧
      StandIn (["spi", "Rx", "FIFO", "Level", "8", "bit"].map String.toList)
        "_spiRxFIFOLevel_8bit".toList ∧
      HasWordShape "FIFO".toList := by
  have hword : isWord "_spiRxFIFOLevel_8bit".toList = true := by decide
  have hwords : words "_spiRxFIFOLevel_8bit".toList =
      ["spi", "Rx", "FIFO", "Level", "8", "bit"].map String.toList := by decide
  obtain ⟨hpattern, _, hflatten, hstand, _, hshape, _⟩ := words_lossless hword
  rw [hwords] at hpattern hflatten hstand hshape
  exact ⟨hword, hpattern.symm, hflatten, hstand, hshape _ (by simp)⟩

end RegisterMap.Name
