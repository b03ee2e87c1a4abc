import RegisterMap.Proofs.Claimed
import RegisterMap.Proofs.Fragment.RoundTrip
import RegisterMap.Proofs.Toml.Characters

/-!
# Descriptions that can be written

The description of a register or of a part of it stands between double quotes in the text of the
fragment, and tabs and line feeds are the only control characters that are escaped there. So the
fragment of a register of an accepted document can be read if its descriptions have no other control
characters, and only then.
-/

namespace RegisterMap

open Toml

/-! ### Parts of texts -/

section Infixes

variable {text : List Char}

lemma infix_flatMap {α : Type} {a : α} {as : List α} (h : a ∈ as) (f : α → List Char) :
    f a <:+: as.flatMap f := by
  rw [List.flatMap_def]
  exact List.infix_of_mem_flatten (List.mem_map_of_mem h)

lemma infix_intercalate {texts : List (List Char)} (h : text ∈ texts) (separator : List Char) :
    text <:+: separator.intercalate texts := by
  induction texts with
  | nil => cases h
  | cons first texts ih =>
    cases texts with
    | nil =>
      rw [List.mem_singleton.mp h, List.intercalate_singleton]
    | cons next texts =>
      rw [List.intercalate_cons_cons]
      rcases List.mem_cons.mp h with rfl | h
      · exact List.infix_append_of_infix_left List.infix_append_left
      · exact List.infix_append_of_infix_right (ih h)

lemma infix_lineChars {line : String} {lines : List String} (h : line ∈ lines) :
    line.toList <:+: lineChars lines :=
  List.infix_append_left.trans (infix_flatMap h fun line => line.toList ++ ['\n'])

end Infixes

/-! ### Entries of fragments -/

namespace Fragment

/-- The entries of a fragment and of the fragments in it. -/
def allEntries (f : Fragment) : Entries :=
  f.entries ++ f.bitFields.flatten ++ f.enums.flatMap fun e => e.entries ++ e.values.flatten

variable {entry : String × Literal} {header : String}

lemma infix_entryChars (entry : String × Literal) : entry.2.code.toList <:+: entryChars entry :=
  List.infix_append_of_infix_right <|
    List.infix_cons (List.infix_cons (List.infix_cons List.infix_rfl))

lemma exists_infix_line {entries : Entries} (h : entry ∈ entries) :
    ∃ line ∈ entries.code, entry.2.code.toList <:+: line.toList := by
  have hmem : entryChars entry ∈ entries.code.map String.toList := by
    rw [map_toList_code]
    exact List.mem_map_of_mem h
  obtain ⟨line, hline, heq⟩ := List.mem_map.mp hmem
  exact ⟨line, hline, heq ▸ infix_entryChars entry⟩

lemma infix_itemCode {entries : Entries} (h : entry ∈ entries) :
    entry.2.code.toList <:+: entries.itemCode.toList := by
  have hitem : entryChars entry <:+: [',', ' '].intercalate (entries.map entryChars) :=
    infix_intercalate (List.mem_map_of_mem h) _
  rw [toList_itemCode]
  exact (infix_entryChars entry).trans (hitem.trans ⟨"    \x7b ".toList, " \x7d,".toList, by simp⟩)

lemma infix_sectionLines {entries : Entries} {items : List Entries}
    (h : entry ∈ entries ++ items.flatten) (header key : String) :
    entry.2.code.toList <:+: lineChars (sectionLines header entries key items) := by
  have hline : ∃ line ∈ sectionLines header entries key items,
      entry.2.code.toList <:+: line.toList := by
    rcases List.mem_append.mp h with h | h
    · obtain ⟨line, hline, hpart⟩ := exists_infix_line h
      exact ⟨line, by simp [sectionLines, hline], hpart⟩
    · obtain ⟨item, hitem, hentry⟩ := List.mem_flatten.mp h
      have hline : Entries.itemCode item ∈ items.map Entries.itemCode := List.mem_map_of_mem hitem
      exact ⟨_, List.mem_append_left _ (List.mem_append_right _ hline), infix_itemCode hentry⟩
  obtain ⟨line, hline, hpart⟩ := hline
  exact hpart.trans (infix_lineChars hline)

/-- What is written for an entry stands in the text of the fragment. -/
lemma infix_text {f : Fragment} (h : entry ∈ f.allEntries) (header : String) :
    entry.2.code.toList <:+: (f.text header).toList := by
  rw [allEntries, List.mem_append, List.mem_append, ← List.mem_append] at h
  rw [toList_text]
  rcases h with h | h
  · exact List.infix_append_of_infix_left (infix_sectionLines h _ _)
  · obtain ⟨e, he, hentry⟩ := List.mem_flatMap.mp h
    refine List.infix_append_of_infix_right <|
      .trans ?_ (infix_flatMap he fun e => lineChars (e.lines header))
    rw [e.lines_eq]
    exact infix_sectionLines hentry _ _

/-! ### Descriptions -/

/-- A character that stands for itself between double quotes is followed there by one that is no
line feed. -/
lemma exists_infix_quoted {text : String} {c : Char} (hc : c ∈ text.toList)
    (hescape : escapeChar c = [c]) : ∃ d, d ≠ '\n' ∧ [c, d] <:+: (quoted text).toList := by
  have hbreak (text : List Char) : '\n' ∉ text.flatMap escapeChar ++ ['"'] := by
    rw [List.mem_append, List.mem_flatMap]
    rintro (⟨d, _, hd⟩ | hd)
    · unfold escapeChar at hd
      split at hd <;> simp_all [eq_comm]
    · simp at hd
  obtain ⟨front, back, htext⟩ := List.append_of_mem hc
  obtain ⟨d, rest, hrest⟩ :=
    List.exists_cons_of_ne_nil (List.append_ne_nil_of_right_ne_nil (back.flatMap escapeChar)
      (List.cons_ne_nil '"' []))
  refine ⟨d, ?_, '"' :: front.flatMap escapeChar, rest, ?_⟩
  · rintro rfl
    exact hbreak back (hrest ▸ List.mem_cons_self)
  · rw [toList_quoted, htext, List.flatMap_append, List.flatMap_cons, hescape, List.append_assoc,
      List.append_assoc, List.append_assoc [c], hrest]
    rfl

/-- All texts of a fragment that is read can be written. -/
lemma isWritableText_of_readDocument? {f : Fragment} {key text : String}
    (h : (key, Literal.text text) ∈ f.allEntries) {t : Table}
    (hread : readDocument? (f.text header) = some t) : IsWritableText text := by
  intro c hc
  refine (isWritable_or_escapeChar_eq c).elim id fun hescape => ?_
  obtain ⟨d, hd, hpart⟩ := exists_infix_quoted hc hescape
  exact isWritable_of_readDocument? hread (hpart.trans (infix_text h header)) hd

lemma mem_descriptionEntry {description : Option String} {text : String}
    (h : text ∈ description) (hne : text ≠ "") :
    ("description", Literal.text text) ∈ descriptionEntry description := by
  rw [Option.mem_def] at h
  simp [descriptionEntry, h, hne]

/-- Each description of an accepted register has an entry unless it is empty. -/
lemma mem_allEntries_of_mem_descriptions {d : Description} {r described : Register} {path : Path}
    {t : Table} (hmade : Register.MadeFrom path t described r) {text : String}
    (h : text ∈ r.descriptions) (hne : text ≠ "") (location : String × Literal) :
    ("description", Literal.text text) ∈ (located d r location).allEntries := by
  simp only [Register.descriptions, List.mem_append, List.mem_filterMap, List.mem_flatMap,
    Option.mem_toList] at h
  rcases h with (h | ⟨f, hf, h⟩) | ⟨e, he, h | ⟨v, hv, h⟩⟩
  · refine List.mem_append_left _ (List.mem_append_left _ ?_)
    simp [located, mem_descriptionEntry h hne]
  · have hfield : ("description", Literal.text text) ∈ ofBitField f := by
      cases hname : f.name with
      | none =>
        rw [(hmade.isReadable_bitField hf).description_eq_none hname] at h
        cases h
      | some name => simp [ofBitField, hname, mem_descriptionEntry h hne]
    exact List.mem_append_left _ <| List.mem_append_right _ <|
      List.mem_flatten.mpr ⟨_, List.mem_map_of_mem hf, hfield⟩
  · have henum : ("description", Literal.text text) ∈ (ofEnum e).entries := by
      simp [ofEnum, mem_descriptionEntry h hne]
    exact List.mem_append_right _ <|
      List.mem_flatMap.mpr ⟨_, List.mem_map_of_mem he, List.mem_append_left _ henum⟩
  · have hvalue : ("description", Literal.text text) ∈ ofEnumValue v := by
      simp [ofEnumValue, mem_descriptionEntry h hne]
    exact List.mem_append_right _ <| List.mem_flatMap.mpr ⟨_, List.mem_map_of_mem he,
      List.mem_append_right _ (List.mem_flatten.mpr ⟨_, List.mem_map_of_mem hv, hvalue⟩)⟩

/-- What is written for a text is the text between double quotes if the text has no control
characters but tabs and line feeds, and only then. The fragment of a register of an accepted
document can be read if the descriptions of the register are such texts, and only then. -/
theorem readable_iff_descriptions (text : String) (value : List Char) :
    (IsBasicString (quoted text).toList value ↔ IsWritableText text ∧ value = text.toList) ∧
    ∀ {root : Table} {m : Model} {r : Register} {group : Option String},
      Model.ofTable root = .ok m → r ∈ m.allRegisters →
      (m.isGrouped = true → ∃ name, group = some name ∧ Name.isWord name.toList = true) →
      ∃ fragment, render m r group = .ok fragment ∧
        ((∃ t, readDocument? fragment = some t) ↔
          ∀ description ∈ r.descriptions, IsWritableText description) := by
  refine ⟨isBasicString_quoted_iff, ?_⟩
  intro root m r group h hr hgroup
  obtain ⟨_, _, _, haccepts⟩ := Model.exists_accepts_of_ofTable h hr
  obtain ⟨described, hmade⟩ := Register.exists_madeFrom_of_accepts haccepts
  obtain ⟨kind, hgiven, hslot⟩ := Register.exists_given_of_accepts haccepts
  obtain ⟨literal, hlocation, hliteral, _⟩ := exists_locationEntry hgiven
  obtain ⟨parents, last, hheader, hbare, _⟩ := exists_header hgroup
  refine ⟨(located m.description r (kind.key, literal)).text
    (String.intercalate "." (parents ++ [last])), ?_, ?_, ?_⟩
  · rw [render, hheader, ofRegister_of_locationEntry hlocation]
    rfl
  · rintro ⟨t, hread⟩ description hmem
    by_cases hne : description = ""
    · rw [hne]
      exact fun c hc => absurd hc List.not_mem_nil
    · exact isWritableText_of_readDocument?
        (mem_allEntries_of_mem_descriptions hmade hmem hne _) hread
  · intro htexts
    exact ⟨_, readDocument?_text (isReadable_located hmade hslot hliteral htexts) hbare⟩

theorem readable_iff_descriptions_splitRegister :
    Model.ofTable splitDocument = .ok splitModel ∧ splitRegister ∈ splitModel.allRegisters ∧
      IsBasicString (quoted "Mode\n\tcontrol").toList "Mode\n\tcontrol".toList ∧
      ∃ text t, render splitModel splitRegister (some "attribute") = .ok text ∧
        readDocument? text = some t := by
  have hmodel : Model.ofTable splitDocument = .ok splitModel := rfl
  have hmem : splitRegister ∈ splitModel.allRegisters := List.mem_singleton_self _
  have htexts : ∀ text ∈ splitRegister.descriptions, IsWritableText text := by
    have hall : (splitRegister.descriptions.all fun text =>
        text.toList.all fun c => decide (IsWritable c)) = true := rfl
    simpa [IsWritableText] using hall
  obtain ⟨hquoted, hrender⟩ :=
    readable_iff_descriptions "Mode\n\tcontrol" "Mode\n\tcontrol".toList
  obtain ⟨text, htext, hiff⟩ := hrender hmodel hmem fun _ => ⟨"attribute", rfl, by decide⟩
  obtain ⟨t, ht⟩ := hiff.mpr htexts
  exact ⟨hmodel, hmem, hquoted.mpr ⟨htexts _ (by decide), rfl⟩, text, t, htext, ht⟩

/-- A document with a carriage return in the description of a register. -/
def returnDocument : Table :=
  [("register_description", .table [("name", .text "chip"), ("version", .text "0.1")]),
   ("register", .array [.table
     [("name", .text "status"), ("description", .text "\r"), ("absolute_address", .integer 0),
      ("access", .text "rw"), ("size", .integer 8), ("bit_fields", .array
        [.table [("bit", .text "7:0"), ("name", .text "code")]])]])]

def returnRegister : Register :=
  { Accessor.plainRegister "status" "code" with description := some "\r" }

def returnModel : Model :=
  { Accessor.plainModel "status" "code" with registers := some (.list [returnRegister]) }

/-- A carriage return has no text between double quotes, and a fragment with it cannot be read. -/
theorem quoted_return_not_readable :
    (¬∃ value, IsBasicString (quoted "\r").toList value) ∧
      Model.ofTable returnDocument = .ok returnModel ∧ returnRegister ∈ returnModel.allRegisters ∧
      ∃ text, render returnModel returnRegister none = .ok text ∧ readDocument? text = none := by
  have hreturn : ¬IsWritableText "\r" := fun h => absurd (h '\r' (by decide)) (by decide)
  refine ⟨fun ⟨value, h⟩ => hreturn (isBasicString_quoted_iff.mp h).1, rfl,
    List.mem_singleton_self _, _, rfl, ?_⟩
  rw [Option.eq_none_iff_forall_ne_some]
  intro t ht
  have hentry : ("description", Literal.text "\r") ∈ (located returnModel.description returnRegister
    ("absolute_address", .hexadecimal 0)).allEntries := by decide
  exact hreturn (isWritableText_of_readDocument? hentry ht)

end Fragment

end RegisterMap
