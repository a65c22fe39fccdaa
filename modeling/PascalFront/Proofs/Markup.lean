-- The markup of a listing. Inside quotes no character stands that could end the
-- quotes or a tag, and no text is lost by that; so the tags are what stands
-- between angle brackets, and each closing tag is that of the last open element.
import PascalFront.Listing
import PascalFront.Proofs.Lexemes

namespace PascalFront

namespace Listing

/-! ## Escapes -/

/-- Reads the entities of a quoted text as the characters that they stand for. -/
def unescape : List Char → List Char
  | '&' :: 'q' :: 'u' :: 'o' :: 't' :: ';' :: cs => '"' :: unescape cs
  | '&' :: 'l' :: 't' :: ';' :: cs => '<' :: unescape cs
  | '&' :: 'g' :: 't' :: ';' :: cs => '>' :: unescape cs
  | '&' :: 'a' :: 'm' :: 'p' :: ';' :: cs => '&' :: unescape cs
  | c :: cs => c :: unescape cs
  | [] => []

/-- A character is written as itself, or as its entity. -/
theorem escape_cases (c : Char) :
    (c ≠ '"' ∧ c ≠ '<' ∧ c ≠ '>' ∧ c ≠ '&' ∧ escape c = [c]) ∨
      (c, escape c) ∈ [('"', "&quot;".toList), ('<', "&lt;".toList), ('>', "&gt;".toList),
        ('&', "&amp;".toList)] := by
  unfold escape
  by_cases hquote : c = '"'
  · simp [hquote]
  by_cases hless : c = '<'
  · simp [hless]
  by_cases hgreater : c = '>'
  · simp [hgreater]
  by_cases hand : c = '&'
  · simp [hand]
  exact .inl ⟨hquote, hless, hgreater, hand, by simp [hquote, hless, hgreater, hand]⟩

theorem unescape_escape (c : Char) (cs : List Char) :
    unescape (escape c ++ cs) = c :: unescape cs := by
  rcases escape_cases c with ⟨-, -, -, hand, h⟩ | h
  · simp [h, unescape, hand]
  · simp only [List.mem_cons, Prod.mk.injEq, List.not_mem_nil, or_false] at h
    rcases h with ⟨rfl, h⟩ | ⟨rfl, h⟩ | ⟨rfl, h⟩ | ⟨rfl, h⟩ <;> (rw [h]; simp [unescape])

/-- Escaping is undone for every text. -/
theorem unescape_escaped (cs : List Char) : unescape (cs.flatMap escape) = cs := by
  induction cs with
  | nil => simp [unescape]
  | cons c cs ih => rw [List.flatMap_cons, unescape_escape, ih]

/-- No quotes and no angle brackets stand in an escaped text. -/
theorem not_mark_of_escaped {cs : List Char} {d : Char} (h : d ∈ cs.flatMap escape) :
    d ≠ '"' ∧ d ≠ '<' ∧ d ≠ '>' := by
  obtain ⟨c, -, hd⟩ := List.mem_flatMap.mp h
  rcases escape_cases c with ⟨hquote, hless, hgreater, -, h⟩ | h
  · rw [h, List.mem_singleton] at hd
    rw [hd]
    exact ⟨hquote, hless, hgreater⟩
  · have hentities : [('"', "&quot;".toList), ('<', "&lt;".toList), ('>', "&gt;".toList),
        ('&', "&amp;".toList)].all (·.2.all fun d => d != '"' && d != '<' && d != '>') = true := by
      decide
    have hall := List.all_eq_true.mp (List.all_eq_true.mp hentities _ h) d hd
    simpa [and_assoc] using hall

/-! ## Tags -/

/-- The texts between `<` and `>`, where `seen` is what was read of one, backwards. -/
def tagsFrom : Option (List Char) → List Char → List (List Char)
  | _, [] => []
  | none, c :: cs => if c = '<' then tagsFrom (some []) cs else tagsFrom none cs
  | some seen, c :: cs =>
    if c = '>' then seen.reverse :: tagsFrom none cs else tagsFrom (some (c :: seen)) cs

/-- The tags of a text. -/
def tags (cs : List Char) : List (List Char) := tagsFrom none cs

/-- The name in a tag. -/
def tagName (tag : List Char) : List Char := tag.takeWhile (· != ' ')

/-- Whether each closing tag has the name of the last element that is open, and in the end none is
open. -/
def nests : List (List Char) → List (List Char) → Bool
  | names, [] => names.isEmpty
  | names, ('/' :: name) :: rest =>
    match names with
    | top :: names => top == name && nests names rest
    | [] => false
  | names, tag :: rest =>
    if tag.getLast? = some '/' then nests names rest else nests (tagName tag :: names) rest

/-- Opening and closing tags balance. -/
def Balances (text : String) : Prop := nests [] (tags text.toList) = true

theorem tags_plain {before : List Char} (h : ∀ c ∈ before, c ≠ '<') (cs : List Char) :
    tags (before ++ cs) = tags cs := by
  unfold tags
  induction before with
  | nil => rfl
  | cons c before ih =>
    rw [List.cons_append, tagsFrom, if_neg (h c (by simp))]
    exact ih fun d hd => h d (by simp [hd])

theorem tags_tag {inside : List Char} (h : ∀ c ∈ inside, c ≠ '>') (cs : List Char) :
    tags ('<' :: (inside ++ '>' :: cs)) = inside :: tags cs := by
  have hseen : ∀ seen, tagsFrom (some seen) (inside ++ '>' :: cs) =
      (seen.reverse ++ inside) :: tagsFrom none cs := by
    induction inside with
    | nil => intro seen; simp [tagsFrom]
    | cons c inside ih =>
      intro seen
      rw [List.cons_append, tagsFrom, if_neg (h c (by simp)), ih fun d hd => h d (by simp [hd])]
      simp
  rw [tags, tagsFrom, if_pos rfl, hseen]
  rfl

section

variable {names : List (List Char)} {tag : List Char} {rest : List (List Char)}

theorem nests_opened (hstart : tag.head? ≠ some '/') (hend : tag.getLast? ≠ some '/') :
    nests names (tag :: rest) = nests (tagName tag :: names) rest := by
  rw [nests, if_neg hend]
  rintro name rfl
  exact hstart rfl

theorem nests_empty (hstart : tag.head? ≠ some '/') (hend : tag.getLast? = some '/') :
    nests names (tag :: rest) = nests names rest := by
  rw [nests, if_pos hend]
  rintro name rfl
  exact hstart rfl

theorem nests_closed (name : List Char) :
    nests (name :: names) (('/' :: name) :: rest) = nests names rest := by
  simp [nests]

end

/-! ## The tags of a tree -/

section

variable (naming : Naming) (line : Option Nat) (id : Option SymbolId) (value : Option Value)

/-- The attributes that are present, as keys and texts. -/
def pairs : List (String × String) :=
  (line.map fun l => ("line", toString l)).toList ++ (id.map fun i => ("id", naming i)).toList ++
    (value.map fun v => ("value", v.listingText)).toList

theorem attributes_eq : attributes naming line id value =
    (pairs naming line id value).flatMap fun pair => written pair.1 pair.2 := by
  cases line <;> cases id <;> cases value <;> simp [attributes, pairs]

theorem pairs_key {pair : String × String} (h : pair ∈ pairs naming line id value) :
    pair.1 ∈ ["line", "id", "value"] := by
  simp only [pairs, List.mem_append, Option.mem_toList, Option.map_eq_some_iff] at h
  rcases h with (⟨_, -, rfl⟩ | ⟨_, -, rfl⟩) | ⟨_, -, rfl⟩ <;> simp

/-- No bracket stands in the attributes. -/
theorem attributes_chars {c : Char} (h : c ∈ attributes naming line id value) :
    c ≠ '<' ∧ c ≠ '>' := by
  rw [attributes_eq, List.mem_flatMap] at h
  obtain ⟨pair, hpair, hc⟩ := h
  have hkeys : ∀ key ∈ ["line", "id", "value"],
      key.toList.all (fun d => d != '<' && d != '>') = true := by decide
  simp only [written, List.mem_cons, List.mem_append, List.not_mem_nil, or_false] at hc
  rcases hc with (rfl | hc) | rfl | rfl | hc | rfl
  · decide
  · have hall := List.all_eq_true.mp (hkeys _ (pairs_key naming line id value hpair)) c hc
    simpa using hall
  · decide
  · decide
  · exact (not_mark_of_escaped hc).2
  · decide

theorem attributes_end : attributes naming line id value = [] ∨
    (attributes naming line id value).getLast? = some '"' := by
  rw [attributes_eq]
  rcases List.eq_nil_or_concat (pairs naming line id value) with h | ⟨before, last, h⟩
  · exact .inl (by rw [h]; rfl)
  · refine .inr ?_
    rw [h]
    simp [written, List.flatMap_append, List.getLast?_append, List.getLast?_cons]

/-- Attributes begin with a blank. -/
theorem attributes_start {rest : List Char} (h : StopsRun (· != ' ') rest) :
    StopsRun (· != ' ') (attributes naming line id value ++ rest) := by
  rw [attributes_eq]
  cases pairs naming line id value with
  | nil => exact h
  | cons pair pairs => exact stopsRun_cons.mpr (by decide)

end

/-- The letters of names. -/
def isNameChar (c : Char) : Bool := 'A' ≤ c && c ≤ 'Z' || c == '_'

theorem name_chars (kind : NodeKind) : ∀ c ∈ kind.name.toList, isNameChar c = true := by
  rw [← List.all_eq_true]
  cases kind <;> decide

theorem name_ne_nil (kind : NodeKind) : kind.name.toList ≠ [] := by
  cases kind <;> decide

theorem nameChar_ne {c : Char} (h : isNameChar c = true) :
    c ≠ ' ' ∧ c ≠ '/' ∧ c ≠ '<' ∧ c ≠ '>' := by
  refine ⟨?_, ?_, ?_, ?_⟩ <;> (rintro rfl; exact absurd h (by decide))

/-- The text of an opening tag. -/
def opening (naming : Naming) (kind : NodeKind) (line : Option Nat) (id : Option SymbolId)
    (value : Option Value) : List Char :=
  kind.name.toList ++ attributes naming line id value

section

variable (naming : Naming) (kind : NodeKind) (line : Option Nat) (id : Option SymbolId)
    (value : Option Value)

theorem opening_chars {c : Char} (h : c ∈ opening naming kind line id value) : c ≠ '>' := by
  rcases List.mem_append.mp h with hname | hattributes
  · exact (nameChar_ne (name_chars kind c hname)).2.2.2
  · exact (attributes_chars naming line id value hattributes).2

theorem opening_start (rest : List Char) :
    (opening naming kind line id value ++ rest).head? ≠ some '/' := by
  obtain ⟨c, cs, hname⟩ := List.exists_cons_of_ne_nil (name_ne_nil kind)
  have hc := nameChar_ne (name_chars kind c (by simp [hname]))
  simpa [opening, hname] using hc.2.1

theorem opening_end : (opening naming kind line id value).getLast? ≠ some '/' := by
  rw [opening, List.getLast?_append]
  rcases attributes_end naming line id value with h | h
  · rw [h]
    simp only [List.getLast?_nil, Option.none_or]
    intro hlast
    exact (nameChar_ne (name_chars kind _ (List.mem_of_getLast? hlast))).2.1 rfl
  · rw [h]
    simp

theorem tagName_opening : tagName (opening naming kind line id value) = kind.name.toList := by
  have hstops := attributes_start naming line id value (stopsRun_nil _)
  rw [List.append_nil] at hstops
  exact takeWhile_of_run (fun c hc => by simpa using (nameChar_ne (name_chars kind c hc)).1) hstops

end

/-! ## Elements in pieces -/

def indent (style : Style) (depth : Nat) : List Char := List.replicate (depth * style.width) ' '

theorem indent_chars (style : Style) (depth : Nat) : ∀ c ∈ indent style depth, c = ' ' :=
  fun _ => List.eq_of_mem_replicate

/-- The line that closes an element. -/
def closing (style : Style) (depth : Nat) (kind : NodeKind) (rest : List Char) : List Char :=
  indent style depth ++ '<' :: (('/' :: kind.name.toList) ++ '>' :: '\n' :: rest)

/-- What stands behind the opening of an element. -/
def inner (style : Style) (depth : Nat) (kind : NodeKind) : List Node → List Char → List Char
  | [], rest => [' ', '/'] ++ '>' :: '\n' :: rest
  | c :: cs, rest =>
    '>' :: '\n' :: elements style (depth + 1) (c :: cs) (closing style depth kind rest)

variable (style : Style)

theorem element_eq (depth : Nat) (kind : NodeKind) (line : Option Nat) (id : Option SymbolId)
    (value : Option Value) (children : List Node) (rest : List Char) :
    element style depth ⟨kind, line, id, value, children⟩ rest = indent style depth ++
      '<' :: (opening style.naming kind line id value ++ inner style depth kind children rest) := by
  cases children <;> simp [element, elements, opening, inner, closing, indent]

/-! ## The tags of a tree -/

theorem tags_indent (depth : Nat) (cs : List Char) : tags (indent style depth ++ cs) = tags cs :=
  tags_plain (fun c hc => by rw [indent_chars style depth c hc]; decide) cs

theorem tags_lineFeed (cs : List Char) : tags ('\n' :: cs) = tags cs := by
  have hplain : ∀ c ∈ ['\n'], c ≠ '<' := by simp
  exact tags_plain hplain cs

mutual
/-- The lines of a tree leave the open elements as they were. -/
theorem nests_element (depth : Nat) (names : List (List Char)) (rest : List Char) : ∀ n : Node,
    nests names (tags (element style depth n rest)) = nests names (tags rest)
  | ⟨kind, line, id, value, []⟩ => by
    have hinside : ∀ c ∈ opening style.naming kind line id value ++ [' ', '/'], c ≠ '>' := by
      intro c hc
      rcases List.mem_append.mp hc with hc | hc
      · exact opening_chars _ _ _ _ _ hc
      · rintro rfl
        simp at hc
    rw [element_eq, inner, tags_indent, ← List.append_assoc, tags_tag hinside, tags_lineFeed,
      nests_empty (opening_start _ _ _ _ _ _) (by simp)]
  | ⟨kind, line, id, value, first :: more⟩ => by
    have hclosing : ∀ c ∈ '/' :: kind.name.toList, c ≠ '>' := by
      intro c hc
      rcases List.mem_cons.mp hc with rfl | hc
      · decide
      · exact (nameChar_ne (name_chars kind c hc)).2.2.2
    have hstart := opening_start style.naming kind line id value []
    rw [List.append_nil] at hstart
    rw [element_eq, inner, tags_indent, tags_tag fun c hc => opening_chars _ _ _ _ _ hc,
      tags_lineFeed,
      nests_opened hstart (opening_end _ _ _ _ _), tagName_opening, nests_elements, closing,
        tags_indent,
      tags_tag hclosing, tags_lineFeed, nests_closed]

theorem nests_elements (depth : Nat) (names : List (List Char)) (rest : List Char) :
    ∀ ns : List Node, nests names (tags (elements style depth ns rest)) = nests names (tags rest)
  | [] => by rw [elements]
  | n :: ns => by rw [elements, nests_element depth names _ n, nests_elements depth names rest ns]
end

/-- The tags of every listing balance. -/
theorem balances (n : Node) : Balances (n.listing style) := by
  rw [Balances, Node.listing, String.toList_ofList, nests_element]
  rfl

end Listing

end PascalFront
