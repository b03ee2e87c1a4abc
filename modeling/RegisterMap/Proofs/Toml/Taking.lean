import Mathlib.Data.List.TakeWhile
import RegisterMap.Proofs.Toml.BasicText

/-!
# Characters that readers take

A reader takes plain characters and line feeds from the front of a text and leaves the rest of it as
it is. This holds of what reads white space, comments and texts, and it carries over to readers that
are made up of others.
-/

namespace RegisterMap.Toml

variable {α β : Type} {c : Char} {text text' front rest : List Char}

/-! ### What is left of a text -/

/-- Whether a text is left of another one after characters that can be written. -/
def IsLeft (text rest : List Char) : Prop :=
  ∃ front, text = front ++ rest ∧ ∀ c ∈ front, IsWritable c

namespace IsLeft

lemma refl (text : List Char) : IsLeft text text := ⟨[], rfl, by simp⟩

lemma append (hfront : ∀ c ∈ front, IsWritable c) (h : IsLeft text rest) :
    IsLeft (front ++ text) rest := by
  obtain ⟨front', rfl, hfront'⟩ := h
  exact ⟨front ++ front', by simp, List.forall_mem_append.mpr ⟨hfront, hfront'⟩⟩

lemma cons (hc : IsWritable c) (h : IsLeft text rest) : IsLeft (c :: text) rest := by
  rw [← List.singleton_append]
  exact append (List.forall_mem_singleton.mpr hc) h

/-- What is left after a word that is given. -/
lemma word (front : List Char) (h : front.all (decide <| IsWritable ·) = true) (rest : List Char) :
    IsLeft (front ++ rest) rest :=
  append (by simpa using h) (refl rest)

lemma trans (h : IsLeft text text') (h' : IsLeft text' rest) : IsLeft text rest := by
  obtain ⟨front, rfl, hfront⟩ := h
  exact h'.append hfront

lemma dropWhile {p : Char → Bool} (hp : ∀ c, p c = true → IsWritable c) (text : List Char) :
    IsLeft text (text.dropWhile p) :=
  ⟨text.takeWhile p, List.takeWhile_append_dropWhile.symm,
    fun c hc => hp c (List.mem_takeWhile_imp hc)⟩

lemma drop {count : Nat} (h : ∀ c ∈ text.take count, IsWritable c) :
    IsLeft text (text.drop count) :=
  ⟨text.take count, (List.take_append_drop count text).symm, h⟩

lemma forall_mem (h : IsLeft text rest) (hrest : ∀ c ∈ rest, IsWritable c) :
    ∀ c ∈ text, IsWritable c := by
  obtain ⟨front, rfl, hfront⟩ := h
  exact List.forall_mem_append.mpr ⟨hfront, hrest⟩

end IsLeft

/-- Whether what a reader gives for a text leaves its rest. -/
def Takes (text : List Char) (result : Option (α × List Char)) : Prop :=
  ∀ value rest, result = some (value, rest) → IsLeft text rest

namespace Takes

variable {result : Option (α × List Char)}

lemma none : Takes text (none : Option (α × List Char)) := nofun

lemma some {value : α} (h : IsLeft text rest) : Takes text (some (value, rest)) := by
  rintro _ _ ⟨⟩
  exact h

lemma map (h : Takes text result) {f : α × List Char → β × List Char}
    (hf : ∀ value rest, IsLeft rest (f (value, rest)).2) : Takes text (result.map f) := by
  intro value' rest' hmap
  obtain ⟨⟨value, rest⟩, hresult, heq⟩ := Option.map_eq_some_iff.mp hmap
  have hleft := hf value rest
  rw [heq] at hleft
  exact (h value rest hresult).trans hleft

lemma bind (h : Takes text result) {next : α × List Char → Option (β × List Char)}
    (hnext : ∀ value rest, Takes rest (next (value, rest))) : Takes text (result >>= next) := by
  intro _ _ hbind
  obtain ⟨⟨value, rest⟩, hresult, heq⟩ := Option.bind_eq_some_iff.mp hbind
  exact (h value rest hresult).trans (hnext value rest _ _ heq)

/-- The value that comes first may be the rest of the text alone. -/
lemma bind_rest {before : Option (List Char)} (h : ∀ rest, before = .some rest → IsLeft text rest)
    {next : List Char → Option (β × List Char)} (hnext : ∀ rest, Takes rest (next rest)) :
    Takes text (before >>= next) := by
  intro _ _ hbind
  obtain ⟨rest, hbefore, heq⟩ := Option.bind_eq_some_iff.mp hbind
  exact (h rest hbefore).trans (hnext rest _ _ heq)

/-- The value that comes first may have nothing to do with the text. -/
lemma bind_value {γ : Type} {before : Option γ} {next : γ → Option (β × List Char)}
    (hnext : ∀ value, Takes text (next value)) : Takes text (before >>= next) := by
  intro _ _ hbind
  obtain ⟨value, _, heq⟩ := Option.bind_eq_some_iff.mp hbind
  exact hnext value _ _ heq

lemma trans (h : IsLeft text text') (h' : Takes text' result) : Takes text result :=
  fun value rest hresult => h.trans (h' value rest hresult)

lemma cons (hc : IsWritable c) (h : Takes text result) : Takes (c :: text) result :=
  h.trans (.cons hc (.refl text))

lemma ite {p : Prop} [Decidable p] {result' : Option (α × List Char)} (h : p → Takes text result)
    (h' : ¬p → Takes text result') : Takes text (if p then result else result') := by
  split_ifs with hp
  · exact h hp
  · exact h' hp

lemma isLeft_getD (h : Takes text result) (value : α) :
    IsLeft text (result.getD (value, text)).2 := by
  cases hresult : result with
  | none => exact .refl text
  | some p => exact h p.1 p.2 hresult

lemma orElse {result' : Option (α × List Char)} (h : Takes text result)
    (h' : Takes text result') : Takes text (result <|> result') := by
  cases result with
  | none => exact h'
  | some => exact h

end Takes

/-! ### White space and comments -/

lemma isWritable_of_isSpace (c : Char) (h : isSpace c = true) : IsWritable c := by
  rw [isSpace, Bool.or_eq_true, beq_iff_eq, beq_iff_eq] at h
  rcases h with rfl | rfl <;> decide

lemma isWritable_of_isSpaceOrBreak (c : Char) (h : isSpaceOrBreak c = true) : IsWritable c := by
  rw [isSpaceOrBreak, Bool.or_eq_true, beq_iff_eq] at h
  exact h.imp (fun h => (isWritable_of_isSpace c h).elim id (by rintro rfl; cases h)) id

lemma isLeft_skipSpaces (text : List Char) : IsLeft text (skipSpaces text) :=
  .dropWhile isWritable_of_isSpace text

lemma isLeft_of_skipSpaces_eq (h : skipSpaces text = c :: rest) (hc : IsWritable c) :
    IsLeft text rest :=
  (h ▸ isLeft_skipSpaces text).trans (.cons hc (.refl rest))

lemma isLeft_of_skipFiller {inComment : Bool} (h : skipFiller inComment text = some rest) :
    IsLeft text rest := by
  induction text generalizing inComment with
  | nil =>
    cases h
    exact .refl []
  | cons c text ih =>
    rw [skipFiller] at h
    split_ifs at h with _ hbreak hplain hspace hhash
    · rw [beq_iff_eq] at hbreak
      exact .cons (.inr hbreak) (ih h)
    · exact .cons (.inl hplain) (ih h)
    · exact .cons (isWritable_of_isSpaceOrBreak c hspace) (ih h)
    · rw [beq_iff_eq] at hhash
      exact .cons (hhash ▸ by decide) (ih h)
    · cases h
      exact .refl _

/-- The rest of a line with its line feed is writable if it is plain. -/
lemma isLeft_drop_line (h : (text.takeWhile (· != '\n')).all isPlain = true) :
    IsLeft text ((text.dropWhile (· != '\n')).drop 1) := by
  have hline : IsLeft text (text.dropWhile (· != '\n')) :=
    ⟨_, List.takeWhile_append_dropWhile.symm, fun c hc => .inl (List.all_eq_true.mp h c hc)⟩
  refine hline.trans (.drop ?_)
  have hhead := List.head?_dropWhile_not (· != '\n') text
  cases hrest : text.dropWhile (· != '\n') with
  | nil => simp
  | cons c rest =>
    rw [hrest] at hhead
    obtain rfl : c = '\n' := by simpa using hhead
    exact List.forall_mem_singleton.mpr (by decide)

lemma isLeft_of_skipLineEnd (h : skipLineEnd text = some rest) : IsLeft text rest := by
  unfold skipLineEnd at h
  split at h
  next heq =>
    cases h
    exact heq ▸ isLeft_skipSpaces text
  next rest' heq =>
    cases h
    exact isLeft_of_skipSpaces_eq heq (by decide)
  next rest' heq =>
    split_ifs at h with hplain
    cases h
    exact (isLeft_of_skipSpaces_eq heq (by decide)).trans (isLeft_drop_line hplain)
  next => cases h

/-! ### Texts -/

lemma takes_readBasic (text : List Char) : Takes text (readBasic text) := by
  intro value rest h
  obtain ⟨code, rfl, hvalue⟩ := readBasic_eq_some_iff.mp h
  exact .append (fun c hc => .inl (hvalue.isPlain c hc)) (.cons (by decide) (.refl rest))

lemma takes_readLiteral (text : List Char) : Takes text (readLiteral text) := by
  unfold readLiteral
  have hfront := List.takeWhile_append_dropWhile (p := (· != '\'')) (l := text)
  have hhead := List.head?_dropWhile_not (· != '\'') text
  split
  next c rest heq =>
    refine .ite (fun hplain => .some ?_) fun _ => .none
    rw [heq] at hfront hhead
    obtain rfl : c = '\'' := by simpa using hhead
    rw [← hfront]
    refine .append (fun c hc => .inl ?_) (.cons (by decide) (.refl rest))
    exact List.all_eq_true.mp hplain c hc
  next => exact .none

lemma isWritable_of_isPlain_or (h : (isPlain c || c == '\n') = true) : IsWritable c := by
  rwa [Bool.or_eq_true, beq_iff_eq] at h

lemma isLeft_skipTrimmedBreak {after : { rest : List Char // rest.length ≤ text.length }}
    (h : skipTrimmedBreak text = some after) : IsLeft text after.val := by
  unfold skipTrimmedBreak at h
  split at h
  next rest heq =>
    cases h
    exact (isLeft_of_skipSpaces_eq heq (by decide)).trans
      (.dropWhile isWritable_of_isSpaceOrBreak rest)
  next => cases h

lemma takes_readMultilineBasic (text : List Char) : Takes text (readMultilineBasic text) := by
  fun_induction readMultilineBasic text with
  | case1 => exact .none
  | case2 rest => exact .some (.word ['"', '"', '"'] rfl _)
  | case3 text after hbreak ih =>
    exact .cons (by decide) (.trans (isLeft_skipTrimmedBreak hbreak) ih)
  | case4 => exact .none
  | case5 text _ c after hescape ih =>
    obtain ⟨mark, hmark, hc⟩ := exists_escape_of_readEscape hescape
    have hleft : IsLeft text after.val := ⟨mark, hmark, fun c h => .inl (hc.isPlain c h)⟩
    exact .cons (by decide) (.trans hleft (ih.map fun _ => .refl))
  | case6 c text _ _ hc ih => exact .cons (isWritable_of_isPlain_or hc) (ih.map fun _ => .refl)
  | case7 => exact .none

lemma takes_readMultilineLiteral (text : List Char) : Takes text (readMultilineLiteral text) := by
  fun_induction readMultilineLiteral text with
  | case1 rest => exact .some (.word ['\'', '\'', '\''] rfl _)
  | case2 c text _ hc ih => exact .cons (isWritable_of_isPlain_or hc) (ih.map fun _ => .refl)
  | case3 => exact .none
  | case4 => exact .none

lemma isLeft_withExtraMarks {mark : Char} (hmark : IsWritable mark) (value rest : List Char) :
    IsLeft rest (withExtraMarks mark value rest).2 := by
  have hprefix := (List.take_prefix 2 (rest.takeWhile (· == mark))).trans (List.takeWhile_prefix _)
  refine ⟨_, List.prefix_iff_eq_append.mp hprefix |>.symm, fun c hc => ?_⟩
  have hmark' := List.mem_takeWhile_imp (List.mem_of_mem_take hc)
  rwa [beq_iff_eq.mp hmark']

lemma takes_readMultiline {mark : Char} (hmark : IsWritable mark) (text : List Char) :
    Takes text (readMultiline mark text) := by
  have hread (text : List Char) :
      Takes text ((if mark == '"' then readMultilineBasic else readMultilineLiteral) text) := by
    split_ifs
    · exact takes_readMultilineBasic text
    · exact takes_readMultilineLiteral text
  unfold readMultiline
  split
  next => exact .cons (by decide) ((hread _).map (isLeft_withExtraMarks hmark))
  next => exact (hread _).map (isLeft_withExtraMarks hmark)

end RegisterMap.Toml
