/-!
# Blank characters

The white space of Unicode, and what lines are cut into by it. `words` gives the maximal runs
of characters that are not blank; `trim` removes the blanks at both ends; `isBlankText` holds
of the texts with no word. The class is wider than `Char.isWhitespace`, which knows ASCII
alone (`isBlank_of_isWhitespace`).
-/

namespace TriggerDesk.Text

/-- The characters with the Unicode property `White_Space`. -/
def isBlank (c : Char) : Bool :=
  let n := c.toNat
  (9 ≤ n && n ≤ 13) || n == 0x20 || n == 0x85 || n == 0xA0 || n == 0x1680 ||
    (0x2000 ≤ n && n ≤ 0x200A) || n == 0x2028 || n == 0x2029 || n == 0x202F || n == 0x205F ||
    n == 0x3000

/-- Every character that core calls white space is blank. -/
theorem isBlank_of_isWhitespace {c : Char} (h : c.isWhitespace = true) : isBlank c = true := by
  simp only [Char.isWhitespace, Bool.or_eq_true, decide_eq_true_eq] at h
  rcases h with ((h | h) | h) | h <;> subst h <;> decide

/-- A text of blanks only. -/
def isBlankText (text : String) : Bool :=
  text.toList.all isBlank

/-- Removes the blanks at both ends. -/
def trim (text : String) : String :=
  let front := text.toList.dropWhile isBlank
  String.ofList (front.reverse.dropWhile isBlank).reverse

/-- Puts a character that is not blank in front of the words of the characters after it: it
joins the first of them when no blank stands between, and is a word of its own otherwise. -/
def joinWord (c : Char) (rest : List Char) (words : List (List Char)) : List (List Char) :=
  match rest, words with
  | d :: _, word :: more => if isBlank d then [c] :: words else (c :: word) :: more
  | _, _ => [c] :: words

/-- The words of a list of characters, in order. -/
def wordsOf : List Char → List (List Char)
  | [] => []
  | c :: rest => if isBlank c then wordsOf rest else joinWord c rest (wordsOf rest)

/-- The words of a text: its maximal runs of characters that are not blank. -/
def words (text : String) : List String :=
  (wordsOf text.toList).map String.ofList

/-- A word holds no blank and is not empty. -/
theorem wordsOf_isWord {chars word : List Char} (h : word ∈ wordsOf chars) :
    word ≠ [] ∧ ∀ c ∈ word, isBlank c = false := by
  induction chars generalizing word with
  | nil => simp [wordsOf] at h
  | cons c rest ih =>
    rw [wordsOf] at h
    split at h
    · exact ih h
    · next hc =>
      have hc : isBlank c = false := by simpa using hc
      unfold joinWord at h
      split at h
      · next d _ first more heq =>
        have first_mem : first ∈ wordsOf (d :: _) := heq ▸ List.mem_cons_self
        split at h
        · rcases List.mem_cons.1 h with rfl | h
          · simpa using hc
          · exact ih (heq ▸ h)
        · rcases List.mem_cons.1 h with rfl | h
          · refine ⟨List.cons_ne_nil _ _, fun x hx => ?_⟩
            rcases List.mem_cons.1 hx with rfl | hx
            · exact hc
            · exact (ih first_mem).2 x hx
          · exact ih (heq ▸ List.mem_cons_of_mem _ h)
      · rcases List.mem_cons.1 h with rfl | h
        · simpa using hc
        · exact ih h

end TriggerDesk.Text
