import RegisterMap.Proofs.Name.Style
import RegisterMap.Proofs.Toml.Taking
import RegisterMap.Toml.Document

/-!
# Characters of documents

The readers of numbers, dates, keys, values and statements take plain characters and line feeds
alone. So a document that is well formed has no other characters, apart from carriage returns before
line feeds.
-/

namespace RegisterMap.Toml

variable {c : Char} {text : List Char}

/-! ### Numbers -/

lemma isWritable_of_isDigit (c : Char) (h : c.isDigit = true) : IsWritable c :=
  .inl (isPlain_of_isHexDigit (by simp [Numeral.isHexDigit, h]))

lemma isLeft_moreDigits {isDigit : Char → Bool} (hdigit : ∀ c, isDigit c = true → IsWritable c)
    (text : List Char) : IsLeft text (moreDigits isDigit text).2 := by
  fun_induction moreDigits isDigit text with
  | case1 => exact .refl []
  | case2 c text hc digits rest heq ih =>
    rw [heq] at ih
    exact .cons (hdigit c hc) ih
  | case3 d text hd digits rest heq _ ih =>
    rw [heq] at ih
    exact .cons (by decide) (.cons (hdigit d hd) ih)
  | case4 => exact .refl _
  | case5 => exact .refl _

lemma takes_readDigits {isDigit : Char → Bool} (hdigit : ∀ c, isDigit c = true → IsWritable c)
    (text : List Char) : Takes text (readDigits isDigit text) := by
  unfold readDigits
  split
  next c text =>
    refine .ite (fun hc => .some ?_) fun _ => .none
    exact .cons (hdigit c hc) (isLeft_moreDigits hdigit text)
  next => exact .none

lemma takes_readWhole (text : List Char) : Takes text (readWhole text) := by
  unfold readWhole
  split
  next => exact .some (.cons (by decide) (.refl _))
  next => exact takes_readDigits isWritable_of_isDigit text

lemma isLeft_readSign (text : List Char) : IsLeft text (readSign text).2 := by
  unfold readSign
  split
  next => exact .cons (by decide) (.refl _)
  next => exact .cons (by decide) (.refl _)
  next => exact .refl _

lemma takes_readMarked (text : List Char) : Takes text (readMarked text) := by
  have hmap (base : Nat) {isDigit : Char → Bool}
      (hdigit : ∀ c, isDigit c = true → IsWritable c) (text : List Char) :
      Takes text ((readDigits isDigit text).map (readMarked.read base)) :=
    (takes_readDigits hdigit text).map fun _ => .refl
  unfold readMarked
  split
  next =>
    refine .cons (by decide) (.cons (by decide) (hmap 16 ?_ _))
    exact fun c hc => .inl (isPlain_of_isHexDigit hc)
  next =>
    refine .cons (by decide) (.cons (by decide) (hmap 8 ?_ _))
    intro c hc
    rw [Bool.and_eq_true, decide_eq_true_eq, decide_eq_true_eq] at hc
    have hlow : 0x30 ≤ c.toNat := UInt32.le_iff_toNat_le.mp hc.1
    have hhigh : c.toNat ≤ 0x37 := UInt32.le_iff_toNat_le.mp hc.2
    exact .inl (isPlain_of_toNat (by omega) (by omega))
  next =>
    refine .cons (by decide) (.cons (by decide) (hmap 2 ?_ _))
    intro c hc
    rw [Bool.or_eq_true, beq_iff_eq, beq_iff_eq] at hc
    rcases hc with rfl | rfl <;> decide
  next => exact .none

lemma takes_readFraction (text : List Char) : Takes text (readFraction text) := by
  unfold readFraction
  split
  next => exact .cons (by decide) (takes_readDigits isWritable_of_isDigit _)
  next => exact .none

lemma takes_readExponent (text : List Char) : Takes text (readExponent text) := by
  unfold readExponent
  split
  next c text =>
    refine .ite (fun hc => ?_) fun _ => .none
    have hmark : IsWritable c := by
      rw [Bool.or_eq_true, beq_iff_eq, beq_iff_eq] at hc
      rcases hc with rfl | rfl <;> decide
    refine .cons hmark (.trans (isLeft_readSign text) ?_)
    exact (takes_readDigits isWritable_of_isDigit _).map fun _ => .refl
  next => exact .none

lemma takes_readDecimal (text : List Char) : Takes text (readDecimal text) := by
  unfold readDecimal
  refine .trans (isLeft_readSign text) ?_
  refine .bind (takes_readWhole _) fun whole text => ?_
  refine .trans ((takes_readFraction text).isLeft_getD []) ?_
  refine .trans ((takes_readExponent _).isLeft_getD 0) ?_
  exact .ite (fun _ => .some (.refl _)) fun _ => .some (.refl _)

lemma takes_readNamed (text : List Char) : Takes text (readNamed text) := by
  unfold readNamed
  have hsign := isLeft_readSign text
  generalize readSign text = signed at hsign ⊢
  obtain ⟨negative, text⟩ := signed
  refine .trans hsign ?_
  simp only
  split
  next => exact .some (.word ['i', 'n', 'f'] rfl _)
  next => exact .some (.word ['n', 'a', 'n'] rfl _)
  next => exact .none

lemma takes_readNumber (text : List Char) : Takes text (readNumber text) := by
  unfold readNumber
  split
  next n rest heq => exact .some (takes_readMarked text n rest heq)
  next => exact (takes_readDecimal text).orElse (takes_readNamed text)

/-! ### Dates and times -/

lemma takes_readPart (width maximum : Nat) (text : List Char) :
    Takes text (readPart width maximum text) := by
  unfold readPart
  refine .ite (fun h => .some (.drop fun c hc => ?_)) fun _ => .none
  exact isWritable_of_isDigit c (List.all_eq_true.mp h.2.1 c hc)

lemma takes_readMarkedPart {mark : Char} (hmark : IsWritable mark) (width maximum : Nat)
    (text : List Char) : Takes text (readMarkedPart mark width maximum text) := by
  unfold readMarkedPart
  split
  next c text =>
    exact .ite (fun hc => .cons (hc ▸ hmark) (takes_readPart width maximum text)) fun _ => .none
  next => exact .none

lemma takes_readDate (text : List Char) : Takes text (readDate text) := by
  unfold readDate
  refine .bind (takes_readPart 4 9999 text) fun year text => ?_
  refine .bind (takes_readMarkedPart (by decide) 2 12 text) fun month text => ?_
  refine .bind (takes_readMarkedPart (by decide) 2 31 text) fun day text => ?_
  exact .ite (fun _ => .some (.refl text)) fun _ => .none

lemma isLeft_readMicroseconds (text : List Char) : IsLeft text (readMicroseconds text).2 := by
  unfold readMicroseconds
  split
  next rest =>
    simp only
    split_ifs
    · exact .refl _
    · exact .cons (by decide) (.dropWhile isWritable_of_isDigit rest)
  next => exact .refl _

lemma takes_readTime (text : List Char) : Takes text (readTime text) := by
  unfold readTime
  refine .bind (takes_readPart 2 23 text) fun hour text => ?_
  refine .bind (takes_readMarkedPart (by decide) 2 59 text) fun minute text => ?_
  refine .bind (takes_readMarkedPart (by decide) 2 59 text) fun second text => ?_
  exact .some (isLeft_readMicroseconds text)

lemma takes_readHourOffset (text : List Char) : Takes text (readHourOffset text) := by
  unfold readHourOffset
  refine .bind (takes_readPart 2 23 text) fun hour text => ?_
  refine .bind (takes_readMarkedPart (by decide) 2 59 text) fun minute text => ?_
  exact .some (.refl text)

lemma takes_readOffset (text : List Char) : Takes text (readOffset text) := by
  unfold readOffset
  split
  next => exact .some (.cons (by decide) (.refl _))
  next => exact .some (.cons (by decide) (.refl _))
  next => exact .cons (by decide) (takes_readHourOffset _)
  next => exact .cons (by decide) ((takes_readHourOffset _).map fun _ => .refl)
  next => exact .none

lemma takes_readTimeOfDate (text : List Char) : Takes text (readTimeOfDate text) := by
  unfold readTimeOfDate
  split
  next c text =>
    refine .ite (fun hc => ?_) fun _ => .none
    have hmark : IsWritable c := by
      rw [Bool.or_eq_true, Bool.or_eq_true, beq_iff_eq, beq_iff_eq, beq_iff_eq] at hc
      rcases hc with (rfl | rfl) | rfl <;> decide
    refine .cons hmark ((takes_readTime text).map fun time rest => ?_)
    simp only
    split
    next offset rest' heq => exact takes_readOffset rest offset rest' heq
    next => exact .refl rest
  next => exact .none

lemma takes_readMoment (text : List Char) : Takes text (readMoment text) := by
  unfold readMoment
  split
  next date rest hdate =>
    have hleft := takes_readDate text date rest hdate
    split
    next time offset rest' htime =>
      exact .some (hleft.trans (takes_readTimeOfDate rest (time, offset) rest' htime))
    next => exact .some hleft
  next => exact (takes_readTime text).map fun _ => .refl

/-! ### Keys and values -/

lemma isWritable_of_isBareKeyChar (c : Char) (h : isBareKeyChar c = true) : IsWritable c := by
  rw [isBareKeyChar, Bool.or_eq_true, Bool.or_eq_true, beq_iff_eq, beq_iff_eq] at h
  rcases h with (h | rfl) | rfl
  · have hbounds := Name.toNat_bounds_of_isAlphanum h
    exact .inl (isPlain_of_toNat (by omega) (by omega))
  · decide
  · decide

lemma takes_readKeyPart (text : List Char) : Takes text (readKeyPart text) := by
  unfold readKeyPart
  split
  next => exact .cons (by decide) ((takes_readLiteral _).map fun _ => .refl)
  next => exact .cons (by decide) ((takes_readBasic _).map fun _ => .refl)
  next => exact .ite (fun _ => .none) fun _ => .some (.dropWhile isWritable_of_isBareKeyChar text)

lemma takes_readKey (fuel : Nat) (text : List Char) : Takes text (readKey fuel text) := by
  induction fuel generalizing text with
  | zero => exact .none
  | succ fuel ih =>
    rw [readKey]
    refine .bind (takes_readKeyPart text) fun part text => .trans (isLeft_skipSpaces text) ?_
    simp only
    split
    next rest heq =>
      exact heq ▸ .cons (by decide) (.trans (isLeft_skipSpaces rest) ((ih _).map fun _ => .refl))
    next => exact .some (.refl _)

lemma takes_readScalar (text : List Char) : Takes text (readScalar text) := by
  unfold readScalar
  split
  next =>
    refine .cons (by decide) (.cons (by decide) (.cons (by decide) ?_))
    exact (takes_readMultiline (by decide) _).map fun _ => .refl
  next => exact .cons (by decide) ((takes_readBasic _).map fun _ => .refl)
  next =>
    refine .cons (by decide) (.cons (by decide) (.cons (by decide) ?_))
    exact (takes_readMultiline (by decide) _).map fun _ => .refl
  next => exact .cons (by decide) ((takes_readLiteral _).map fun _ => .refl)
  next => exact .some (.word ['t', 'r', 'u', 'e'] rfl _)
  next => exact .some (.word ['f', 'a', 'l', 's', 'e'] rfl _)
  next =>
    split
    next moment rest heq => exact .some (takes_readMoment text moment rest heq)
    next =>
      refine (takes_readNumber text).map fun n rest => ?_
      cases n <;> exact .refl rest

/-- One step of reading an array takes writable characters if reading with less fuel does. -/
lemma takes_readItems_succ {fuel : Nat} (hvalue : ∀ text, Takes text (readValue fuel text))
    (hitems : ∀ text, Takes text (readItems fuel text)) (text : List Char) :
    Takes text (readItems (fuel + 1) text) := by
  rw [readItems]
  split
  next => exact .none
  next rest hfiller =>
    exact .some ((isLeft_of_skipFiller hfiller).trans (.cons (by decide) (.refl rest)))
  next text' _ hfiller =>
    refine .trans (isLeft_of_skipFiller hfiller) ?_
    refine .bind (hvalue text') fun item text => ?_
    refine .bind_rest (fun _ => isLeft_of_skipFiller) fun text => ?_
    split
    next => exact .some (.cons (by decide) (.refl _))
    next => exact .cons (by decide) ((hitems _).map fun _ => .refl)
    next => exact .none

lemma takes_readEntries_succ {fuel : Nat} (hvalue : ∀ text, Takes text (readValue fuel text))
    (hentries : ∀ entries closed text, Takes text (readEntries fuel entries closed text))
    (entries : Table) (closed : List (List String)) (text : List Char) :
    Takes text (readEntries (fuel + 1) entries closed text) := by
  rw [readEntries]
  refine .bind (takes_readKey _ text) fun key text => ?_
  simp only
  split
  next text =>
    refine .cons (by decide) (.trans (isLeft_skipSpaces text) ?_)
    refine .bind (hvalue _) fun value text => .ite (fun _ => .none) fun _ => ?_
    refine .bind_value fun entries => .trans (isLeft_skipSpaces text) ?_
    simp only
    split
    next heq => exact heq ▸ .some (.cons (by decide) (.refl _))
    next rest heq =>
      exact heq ▸ .cons (by decide) (.trans (isLeft_skipSpaces rest) (hentries _ _ _))
    next => exact .none
  next => exact .none

lemma takes_readValue_succ {fuel : Nat} (hitems : ∀ text, Takes text (readItems fuel text))
    (hentries : ∀ entries closed text, Takes text (readEntries fuel entries closed text))
    (text : List Char) : Takes text (readValue (fuel + 1) text) := by
  rw [readValue.eq_def]
  split
  next h => cases h
  next rest h =>
    cases h
    exact .cons (by decide) ((hitems rest).map fun _ => .refl)
  next rest h =>
    cases h
    refine .cons (by decide) (.trans (isLeft_skipSpaces rest) ?_)
    split
    next heq => exact heq ▸ .some (.cons (by decide) (.refl _))
    next => exact (hentries [] [] _).map fun _ => .refl
  next => exact takes_readScalar _

/-- Values, items and entries take writable characters alone. -/
lemma takes_values (fuel : Nat) :
    (∀ text, Takes text (readValue fuel text)) ∧ (∀ text, Takes text (readItems fuel text)) ∧
      ∀ entries closed text, Takes text (readEntries fuel entries closed text) := by
  induction fuel with
  | zero =>
    refine ⟨fun text => ?_, fun text => ?_, fun entries closed text => ?_⟩
    · rw [readValue]
      exact .none
    · rw [readItems]
      exact .none
    · rw [readEntries]
      exact .none
  | succ fuel ih =>
    obtain ⟨hvalue, hitems, hentries⟩ := ih
    exact ⟨takes_readValue_succ hitems hentries, takes_readItems_succ hvalue hitems,
      takes_readEntries_succ hvalue hentries⟩

/-! ### Documents -/

lemma takes_readStatement (d : Draft) (text : List Char) : Takes text (readStatement d text) := by
  unfold readStatement
  split
  next rest =>
    refine .cons (by decide) (.cons (by decide) (.trans (isLeft_skipSpaces rest) ?_))
    refine .bind (takes_readKey _ _) fun key text => ?_
    simp only
    split
    next => exact .cons (by decide) (.cons (by decide) (.bind_value fun d => .some (.refl _)))
    next => exact .none
  next rest _ =>
    refine .cons (by decide) (.trans (isLeft_skipSpaces rest) ?_)
    refine .bind (takes_readKey _ _) fun key text => ?_
    simp only
    split
    next => exact .cons (by decide) (.bind_value fun d => .some (.refl _))
    next => exact .none
  next => exact .some (.refl _)
  next => exact .some (.refl _)
  next => exact .some (.refl _)
  next =>
    refine .bind (takes_readKey _ _) fun key text => ?_
    simp only
    split
    next rest =>
      refine .cons (by decide) (.trans (isLeft_skipSpaces rest) ?_)
      refine .bind ((takes_values _).1 _) fun value text => ?_
      exact .bind_value fun d => .some (.refl text)
    next => exact .none

/-- All characters of statements that are read can be written. -/
lemma isWritable_of_readStatements {fuel : Nat} {d : Draft} {t : Table}
    (h : readStatements fuel d text = some t) : ∀ c ∈ text, IsWritable c := by
  induction fuel generalizing d text with
  | zero => cases h
  | succ fuel ih =>
    rw [readStatements.eq_def] at h
    split at h
    next heq => cases heq
    next => simp
    next _ heq _ =>
      cases heq
      obtain ⟨⟨d', text'⟩, hstatement, h⟩ := Option.bind_eq_some_iff.mp h
      obtain ⟨text'', hline, h⟩ := Option.bind_eq_some_iff.mp h
      refine (isLeft_skipSpaces _).forall_mem ?_
      refine (takes_readStatement _ _ d' text' hstatement).forall_mem ?_
      exact (isLeft_of_skipLineEnd hline).forall_mem (ih h)

/-- A character that no line feed comes after is kept. -/
lemma mem_normalizeBreaks {d : Char} (h : [c, d] <:+: text) (hd : d ≠ '\n') :
    c ∈ normalizeBreaks text := by
  fun_induction normalizeBreaks text with
  | case1 rest ih =>
    rw [List.infix_cons_iff, List.infix_cons_iff] at h
    rcases h with h | h | h
    · exact absurd (List.cons_prefix_cons.mp (List.cons_prefix_cons.mp h).2).1 hd
    · exact (List.cons_prefix_cons.mp h).1 ▸ List.mem_cons_self
    · exact List.mem_cons_of_mem _ (ih h)
  | case2 e rest _ ih =>
    rw [List.infix_cons_iff] at h
    rcases h with h | h
    · exact (List.cons_prefix_cons.mp h).1 ▸ List.mem_cons_self
    · exact List.mem_cons_of_mem _ (ih h)
  | case3 => simp at h

/-- A well-formed document has no control characters but tabs and line breaks: any other one is
followed by a line feed. -/
theorem isWritable_of_readDocument? {text : String} {t : Table} (h : readDocument? text = some t)
    {c d : Char} (hmem : [c, d] <:+: text.toList) (hd : d ≠ '\n') : IsWritable c :=
  isWritable_of_readStatements h c (mem_normalizeBreaks hmem hd)

end RegisterMap.Toml
