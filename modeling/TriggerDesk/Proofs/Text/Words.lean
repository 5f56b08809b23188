import Mathlib.Data.List.TakeWhile
import TriggerDesk.Text.Blank

/-!
# Words and the blanks around them

What the words of a line are, without a splitter: the line is made of them, in order, with blanks
between every two and perhaps at both ends (`IsWords`). Every line has exactly one such list of
words (`words_eq_iff`), so it does not matter which blanks stand between them, or how many. In the
same way `IsTrimmed` says what is left of a text without the blanks at both ends (`trim_eq_iff`).
-/

namespace TriggerDesk.Text

variable {c : Char} {chars front word rest : List Char} {words : List (List Char)}
  {text line trimmed : String}

/-- Blanks, or nothing. -/
def Blank (chars : List Char) : Prop := ∀ c ∈ chars, isBlank c = true

/-- Characters that are not blank, at least one. -/
structure IsWord (word : List Char) : Prop where
  ne : word ≠ []
  solid : ∀ c ∈ word, isBlank c = false

/-- A word ends in front of some characters. -/
def EndsWord (rest : List Char) : Prop := ∀ c, rest.head? = some c → isBlank c = true

/-- Some characters are words with blanks between them. -/
inductive Spaced : List (List Char) → List Char → Prop where
  | blank {chars : List Char} : Blank chars → Spaced [] chars
  | word {front word rest : List Char} {words : List (List Char)} : Blank front → IsWord word →
      EndsWord rest → Spaced words rest → Spaced (word :: words) (front ++ (word ++ rest))

/-- The words of a line. -/
def IsWords (line : String) (words : List String) : Prop :=
  Spaced (words.map String.toList) line.toList

/-- A blank in front of blanks is one more. -/
theorem blank_cons (hc : isBlank c = true) (h : Blank chars) : Blank (c :: chars) :=
  List.forall_mem_cons.2 ⟨hc, h⟩

/-! ## The splitter finds the words -/

/-- Blanks in front give no word. -/
theorem wordsOf_blank_append (h : Blank front) (rest : List Char) :
    wordsOf (front ++ rest) = wordsOf rest := by
  induction front with
  | nil => rfl
  | cons c front ih =>
    obtain ⟨hc, hfront⟩ := List.forall_mem_cons.1 h
    rw [List.cons_append, wordsOf, if_pos hc]
    exact ih hfront

/-- A word in front, that ends there, is the first one found. -/
theorem wordsOf_word_append (h : IsWord word) (hends : EndsWord rest) :
    wordsOf (word ++ rest) = word :: wordsOf rest := by
  induction word with
  | nil => exact absurd rfl h.ne
  | cons c word ih =>
    obtain ⟨hc, hword⟩ := List.forall_mem_cons.1 h.solid
    rw [List.cons_append, wordsOf, if_neg (by rw [hc]; exact Bool.false_ne_true)]
    cases word with
    | nil =>
      rw [List.nil_append]
      cases rest with
      | nil => rfl
      | cons d rest =>
        -- The next character is blank, so nothing is joined to the word.
        cases hwords : wordsOf (d :: rest) with
        | nil => rfl
        | cons first more => exact if_pos (hends d rfl)
    | cons d word =>
      have hd : isBlank d = false := hword d List.mem_cons_self
      rw [ih ⟨List.cons_ne_nil d word, hword⟩]
      exact if_neg (by rw [hd]; exact Bool.false_ne_true)

/-- Of spaced words, just these are found. -/
theorem Spaced.wordsOf_eq (h : Spaced words chars) : wordsOf chars = words := by
  induction h with
  | blank hblank =>
    have hskip := wordsOf_blank_append hblank []
    rw [List.append_nil] at hskip
    exact hskip
  | word hfront hword hends _ ih =>
    rw [wordsOf_blank_append hfront, wordsOf_word_append hword hends, ih]

/-! ## The words that the splitter finds are there -/

/-- A blank in front of spaced words leaves them spaced. -/
theorem Spaced.blank_cons (hc : isBlank c = true) (h : Spaced words chars) :
    Spaced words (c :: chars) := by
  cases h with
  | blank hblank => exact .blank (Text.blank_cons hc hblank)
  | word hfront hword hends hrest =>
    rw [← List.cons_append]
    exact .word (Text.blank_cons hc hfront) hword hends hrest

/-- A character that is not blank is a word. -/
theorem isWord_singleton (hc : isBlank c = false) : IsWord [c] :=
  ⟨List.cons_ne_nil c [], List.forall_mem_singleton.2 hc⟩

/-- A character that is not blank makes the word longer that it stands at. -/
theorem Spaced.joinWord (hc : isBlank c = false) (h : Spaced words chars) :
    Spaced (joinWord c chars words) (c :: chars) := by
  have hempty : Blank [] := nofun
  have halone : EndsWord chars → Spaced ([c] :: words) (c :: chars) := fun hends =>
    .word hempty (isWord_singleton hc) hends h
  unfold Text.joinWord
  split
  · next d rest word more =>
    cases hd : isBlank d with
    | true =>
      rw [if_pos rfl]
      refine halone fun first hfirst => ?_
      cases hfirst
      exact hd
    | false =>
      rw [if_neg Bool.false_ne_true]
      generalize hchars : d :: rest = chars at h
      cases h with
      | @word front _ after _ hfront hword hends hafter =>
        cases front with
        | nil =>
          have hlonger : IsWord (c :: word) :=
            ⟨List.cons_ne_nil c word, List.forall_mem_cons.2 ⟨hc, hword.solid⟩⟩
          exact .word hempty hlonger hends hafter
        -- Blanks in front of the next word would stand where a character that is not blank does.
        | cons first front =>
          cases hchars
          rw [hfront d List.mem_cons_self] at hd
          cases hd
  · next hshape =>
    refine halone fun first hfirst => ?_
    cases h with
    | blank hblank => exact hblank first (List.mem_of_mem_head? hfirst)
    | word hfront hword hends hrest =>
      obtain ⟨rest, heq⟩ := List.head?_eq_some_iff.1 hfirst
      exact absurd rfl (hshape first rest _ _ heq)

/-- Any characters are the words that are found in them, spaced. -/
theorem spaced_wordsOf (chars : List Char) : Spaced (wordsOf chars) chars := by
  induction chars with
  | nil => exact .blank nofun
  | cons c rest ih =>
    rw [wordsOf]
    cases hc : isBlank c with
    | true => exact ih.blank_cons hc
    | false => exact ih.joinWord hc

/-- The words of a line are what the splitter finds. -/
theorem words_eq_iff {words : List String} : Text.words line = words ↔ IsWords line words := by
  unfold Text.words IsWords
  constructor
  · rintro rfl
    have hsame : String.toList ∘ String.ofList = id := funext fun _ => String.toList_ofList
    rw [List.map_map, hsame, List.map_id]
    exact spaced_wordsOf line.toList
  · intro h
    have hsame : String.ofList ∘ String.toList = id := funext fun _ => String.ofList_toList
    rw [h.wordsOf_eq, List.map_map, hsame, List.map_id]

/-- A line has its words in one way only. -/
theorem IsWords.eq {words others : List String} (h : IsWords line words)
    (hothers : IsWords line others) : words = others :=
  (words_eq_iff.2 h).symm.trans (words_eq_iff.2 hothers)

/-! ## Words that are joined -/

/-- Words, each with the blanks behind it. Only the last may have none. -/
structure Joins (pieces : List (List Char × List Char)) : Prop where
  words : ∀ piece ∈ pieces, IsWord piece.1
  gaps : ∀ piece ∈ pieces, Blank piece.2
  apart : ∀ piece ∈ pieces.dropLast, piece.2 ≠ []

/-- A word ends in front of blanks. -/
theorem EndsWord.of_blank (h : Blank chars) : EndsWord chars :=
  fun c hc => h c (List.mem_of_mem_head? hc)

/-- A word ends in front of a gap, whatever follows. -/
theorem EndsWord.append {gap : List Char} (h : Blank gap) (hne : gap ≠ []) (rest : List Char) :
    EndsWord (gap ++ rest) := by
  cases gap with
  | nil => exact absurd rfl hne
  | cons d gap =>
    intro c hc
    cases hc
    exact h d List.mem_cons_self

/-- The blanks behind a word are the blanks in front of the next. -/
theorem Joins.spaced {pieces : List (List Char × List Char)} (h : Joins pieces)
    (hfront : Blank front) :
    Spaced (pieces.map (·.1)) (front ++ pieces.flatMap fun piece => piece.1 ++ piece.2) := by
  induction pieces generalizing front with
  | nil =>
    rw [List.flatMap_nil, List.append_nil]
    exact .blank hfront
  | cons piece pieces ih =>
    obtain ⟨hword, hwords⟩ := List.forall_mem_cons.1 h.words
    obtain ⟨hgap, hgaps⟩ := List.forall_mem_cons.1 h.gaps
    have hmore : Joins pieces := by
      refine ⟨hwords, hgaps, fun other hother => h.apart other ?_⟩
      cases pieces with
      | nil => cases hother
      | cons => exact List.mem_cons_of_mem piece hother
    rw [List.flatMap_cons, List.append_assoc, List.map_cons]
    refine .word hfront hword ?_ (ih hmore hgap)
    cases pieces with
    | nil =>
      rw [List.flatMap_nil, List.append_nil]
      exact .of_blank hgap
    | cons next more => exact .append hgap (h.apart piece List.mem_cons_self) _

/-! ## Texts without blanks at both ends -/

/-- What is left of a text without the blanks at both ends. -/
structure IsTrimmed (text trimmed : String) : Prop where
  parts : ∃ front back, Blank front ∧ Blank back ∧ text.toList = front ++ (trimmed.toList ++ back)
  first : ∀ c, trimmed.toList.head? = some c → isBlank c = false
  last : ∀ c, trimmed.toList.getLast? = some c → isBlank c = false

/-- Of blanks, nothing is left. -/
theorem dropWhile_of_blank (h : Blank chars) : chars.dropWhile isBlank = [] :=
  List.dropWhile_eq_nil_iff.2 h

/-- A list that starts with no blank stays whole. -/
theorem dropWhile_of_solid (h : ∀ c, chars.head? = some c → isBlank c = false) :
    chars.dropWhile isBlank = chars := by
  cases chars with
  | nil => rfl
  | cons c rest => exact List.dropWhile_cons_of_neg (by rw [h c rfl]; exact Bool.false_ne_true)

/-- Blanks are taken from the front. -/
theorem blank_takeWhile (chars : List Char) : Blank (chars.takeWhile isBlank) :=
  fun _ hc => List.mem_takeWhile_imp hc

/-- What is left does not begin with a blank. -/
theorem head_dropWhile (h : (chars.dropWhile isBlank).head? = some c) : isBlank c = false := by
  have hnot := List.head?_dropWhile_not isBlank chars
  rw [h] at hnot
  simpa using hnot

/-- Trimming leaves a text without the blanks at both ends. -/
theorem isTrimmed_trim (text : String) : IsTrimmed text (trim text) := by
  have htrimmed : (trim text).toList =
      ((text.toList.dropWhile isBlank).reverse.dropWhile isBlank).reverse := String.toList_ofList
  have hback : text.toList.dropWhile isBlank = (trim text).toList ++
      ((text.toList.dropWhile isBlank).reverse.takeWhile isBlank).reverse := by
    rw [htrimmed, ← List.reverse_append, List.takeWhile_append_dropWhile, List.reverse_reverse]
  constructor
  case parts =>
    have hparts := List.takeWhile_append_dropWhile (p := isBlank) (l := text.toList)
    rw [hback] at hparts
    refine ⟨_, _, blank_takeWhile text.toList, ?_, hparts.symm⟩
    exact fun c hc => List.mem_takeWhile_imp (List.mem_reverse.1 hc)
  case first =>
    intro c hc
    have hhead : (text.toList.dropWhile isBlank).head? = some c := by
      rw [hback, List.head?_append, hc]
      rfl
    exact head_dropWhile hhead
  case last =>
    intro c hc
    rw [htrimmed, List.getLast?_reverse] at hc
    exact head_dropWhile hc

/-- Only one text is left without the blanks at both ends. -/
theorem trim_eq_iff : trim text = trimmed ↔ IsTrimmed text trimmed := by
  refine ⟨fun h => h ▸ isTrimmed_trim text, fun h => ?_⟩
  obtain ⟨front, back, hfront, hback, hparts⟩ := h.parts
  have hreverse : Blank back.reverse := fun c hc => hback c (List.mem_reverse.1 hc)
  have hlast : ∀ c, trimmed.toList.reverse.head? = some c → isBlank c = false := by
    intro c hc
    rw [List.head?_reverse] at hc
    exact h.last c hc
  refine String.toList_injective ?_
  show (String.ofList _).toList = _
  rw [String.toList_ofList, hparts, List.dropWhile_append_of_pos hfront]
  cases hchars : trimmed.toList with
  | nil =>
    rw [List.nil_append, dropWhile_of_blank hback]
    rfl
  | cons c rest =>
    have hwhole : ((c :: rest) ++ back).dropWhile isBlank = (c :: rest) ++ back :=
      dropWhile_of_solid fun first hfirst => h.first first (hchars ▸ hfirst)
    rw [hwhole, List.reverse_append, List.dropWhile_append_of_pos hreverse,
      dropWhile_of_solid (hchars ▸ hlast), List.reverse_reverse]

/-- A blank text has only blanks. -/
theorem isBlankText_iff : isBlankText text = true ↔ Blank text.toList := List.all_eq_true

end TriggerDesk.Text
