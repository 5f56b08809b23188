import TriggerDesk.Wire.Lines

/-!
# What is framed is read

A text without a line feed or a carriage return, framed as a line, is found again by the reader of
lines, whatever comes behind it (`readLines_frame`). Many of them, one after the other, are read as
just those (`readLines_frames`). The characters beyond ASCII do not matter: their bytes are no
control characters.

A reader that takes the lines off one after the other, while more bytes come, finds the same lines
as one that has all bytes before it (`Lines.readLines_of_line`).
-/

namespace TriggerDesk.Wire

variable {text : String} {texts : List String} {bytes line rest : List UInt8} {b : UInt8} {c : Char}

/-! ## Bytes of a text -/

/-- The bytes of a text are those of its characters, one after the other. -/
theorem bytesOf_eq (text : String) : bytesOf text = text.toList.flatMap String.utf8EncodeChar := by
  have hlist : text.toUTF8 = (text.toList.flatMap String.utf8EncodeChar).toByteArray := by
    conv => lhs; rw [← String.ofList_toList (s := text)]
    rfl
  rw [bytesOf, hlist]
  simp

/-- A text is what its bytes are. -/
theorem textOf?_bytesOf (text : String) : textOf? (bytesOf text) = some text := by
  have hbytes : (⟨(bytesOf text).toArray⟩ : ByteArray) = text.toByteArray := by
    simp [bytesOf]
  rw [textOf?, hbytes, String.fromUTF8?, dif_pos text.isValidUTF8]
  rfl

/-- A byte that is ASCII is the code of the character that it is from. -/
theorem toNat_of_mem_utf8EncodeChar (hb : b ∈ String.utf8EncodeChar c) (hascii : b.toNat < 128) :
    c.toNat = b.toNat := by
  have hcode : c.val.toNat = c.toNat := rfl
  unfold String.utf8EncodeChar at hb
  dsimp only at hb
  split at hb
  · rw [List.mem_singleton] at hb
    rw [hb, UInt8.toNat_ofNat']
    omega
  · -- Every byte of a longer code is at least 128.
    split at hb
    · simp only [List.mem_cons, List.not_mem_nil, or_false] at hb
      rcases hb with rfl | rfl <;> rw [UInt8.toNat_ofNat'] at hascii <;> omega
    · split at hb
      · simp only [List.mem_cons, List.not_mem_nil, or_false] at hb
        rcases hb with rfl | rfl | rfl <;> rw [UInt8.toNat_ofNat'] at hascii <;> omega
      · simp only [List.mem_cons, List.not_mem_nil, or_false] at hb
        rcases hb with rfl | rfl | rfl | rfl <;> rw [UInt8.toNat_ofNat'] at hascii <;> omega

/-- An ASCII byte stands in a text only as its own character. -/
theorem not_mem_bytesOf (hascii : b.toNat < 128) (h : ∀ c ∈ text.toList, c.toNat ≠ b.toNat) :
    b ∉ bytesOf text := by
  intro hb
  rw [bytesOf_eq] at hb
  obtain ⟨c, hc, hb⟩ := List.mem_flatMap.1 hb
  exact h c hc (toNat_of_mem_utf8EncodeChar hb hascii)

/-! ## Lines -/

/-- A line that can be read is read before the rest. -/
theorem readLines_of_split (h : splitLine? bytes = some (line, rest))
    (htext : textOf? (withoutReturn line) = some text) :
    readLines bytes = text :: readLines rest := by
  rw [readLines]
  split
  · next heq =>
    rw [h] at heq
    cases heq
    rw [htext]
  · next heq =>
    rw [h] at heq
    cases heq

/-- A line that cannot be read ends the reading. -/
theorem readLines_of_unreadable (h : splitLine? bytes = some (line, rest))
    (htext : textOf? (withoutReturn line) = none) : readLines bytes = [] := by
  rw [readLines]
  split
  · next heq =>
    rw [h] at heq
    cases heq
    rw [htext]
  · next heq =>
    rw [h] at heq
    cases heq

/-- Bytes without a line feed are the last line, if there are any and they can be read. -/
theorem readLines_of_none (h : splitLine? bytes = none) :
    readLines bytes = if bytes.isEmpty then [] else (textOf? bytes).toList := by
  rw [readLines]
  split
  · next heq =>
    rw [h] at heq
    cases heq
  · rfl

/-- Bytes without a line feed are split off at the line feed that follows. -/
theorem splitLine?_append (h : lineFeed ∉ line) (rest : List UInt8) :
    splitLine? (line ++ lineFeed :: rest) = some (line, rest) := by
  have hkept : ∀ b ∈ line, (b ≠ lineFeed : Bool) = true := by
    intro b hb
    simpa using fun heq : b = lineFeed => h (heq ▸ hb)
  unfold splitLine?
  rw [List.dropWhile_append_of_pos hkept, List.takeWhile_append_of_pos hkept]
  simp

/-- Where there is no carriage return, none is taken off. -/
theorem withoutReturn_of_not_mem (h : carriageReturn ∉ bytes) : withoutReturn bytes = bytes := by
  unfold withoutReturn
  split
  · next last hlast =>
    rw [if_neg]
    exact fun heq => h (heq ▸ List.mem_of_getLast? hlast)
  · rfl

/-- A text that takes no more than one line. -/
def IsOneLine (text : String) : Prop :=
  ∀ c ∈ text.toList, c ≠ '\n' ∧ c ≠ '\r'

/-- The bytes of a text of one line have no line feed and no carriage return. -/
theorem IsOneLine.not_mem (h : IsOneLine text) :
    lineFeed ∉ bytesOf text ∧ carriageReturn ∉ bytesOf text := by
  refine ⟨not_mem_bytesOf (by decide) fun c hc heq => ?_,
    not_mem_bytesOf (by decide) fun c hc heq => ?_⟩
  · exact (h c hc).1 (Char.toNat_inj.1 heq)
  · exact (h c hc).2 (Char.toNat_inj.1 heq)

/-- A framed text is split off from whatever follows it. -/
theorem splitLine?_frame (h : IsOneLine text) (rest : List UInt8) :
    splitLine? (frame text ++ rest) = some (bytesOf text, rest) := by
  rw [frame, List.append_assoc]
  exact splitLine?_append h.not_mem.1 rest

/-- The reader of a connection finds a text that was framed, and what comes behind it. -/
theorem next_frame (h : IsOneLine text) (rest : List UInt8) (isOpen : Bool) :
    Lines.next { bytes := frame text ++ rest, isOpen } = .line text { bytes := rest, isOpen } := by
  simp only [Lines.next, splitLine?_frame h, withoutReturn_of_not_mem h.not_mem.2, Lines.nextOf,
    textOf?_bytesOf]

/-- A framed text is read as it was written, whatever follows it. -/
theorem readLines_frame (h : IsOneLine text) (rest : List UInt8) :
    readLines (frame text ++ rest) = text :: readLines rest :=
  readLines_of_split (splitLine?_frame h rest)
    (by rw [withoutReturn_of_not_mem h.not_mem.2, textOf?_bytesOf])

/-- Texts that are framed one after the other are read as they are. -/
theorem readLines_frames (h : ∀ text ∈ texts, IsOneLine text) :
    readLines (texts.flatMap frame) = texts := by
  induction texts with
  | nil => simp [readLines, splitLine?]
  | cons text rest ih =>
    rw [List.flatMap_cons, readLines_frame (h text List.mem_cons_self),
      ih fun other hother => h other (List.mem_cons_of_mem _ hother)]

/-! ## Lines of a stream -/

/-- Every line of some bytes when no more come, whether it can be read or not. -/
def allLines (bytes : List UInt8) : List (List UInt8) :=
  match _h : splitLine? bytes with
  | some (line, rest) => withoutReturn line :: allLines rest
  | none => if bytes.isEmpty then [] else [bytes]
termination_by bytes.length
decreasing_by exact length_lt_of_splitLine? _h

/-- Whether a line is valid UTF-8. -/
def isReadable (line : List UInt8) : Bool := (textOf? line).isSome

/-- A line that is split off is the first of all lines. -/
theorem allLines_of_split (h : splitLine? bytes = some (line, rest)) :
    allLines bytes = withoutReturn line :: allLines rest := by
  rw [allLines]
  split
  · next heq =>
    rw [h] at heq
    cases heq
    rfl
  · next heq =>
    rw [h] at heq
    cases heq

/-- Bytes without a line feed are one line, if there are any. -/
theorem allLines_of_none (h : splitLine? bytes = none) :
    allLines bytes = if bytes.isEmpty then [] else [bytes] := by
  rw [allLines]
  split
  · next heq =>
    rw [h] at heq
    cases heq
  · rfl

/-- What is read are the lines before the first one that is not valid UTF-8. -/
theorem readLines_eq_filterMap (bytes : List UInt8) :
    readLines bytes = ((allLines bytes).takeWhile isReadable).filterMap textOf? := by
  fun_induction readLines bytes with
  | case1 bytes line rest hsplit text htext ih =>
    rw [allLines_of_split hsplit, List.takeWhile_cons_of_pos (by simp [isReadable, htext]),
      List.filterMap_cons_some htext, ih]
  | case2 bytes line rest hsplit htext =>
    rw [allLines_of_split hsplit, List.takeWhile_cons_of_neg (by simp [isReadable, htext]),
      List.filterMap_nil]
  | case3 bytes hsplit hempty =>
    rw [allLines_of_none hsplit, if_pos hempty]
    rfl
  | case4 bytes hsplit hempty =>
    rw [allLines_of_none hsplit, if_neg hempty]
    cases htext : textOf? bytes <;> simp [isReadable, htext]

/-- What is split off, a line feed and the rest are all the bytes, and the line has no line feed. -/
theorem eq_of_splitLine? (h : splitLine? bytes = some (line, rest)) :
    bytes = line ++ lineFeed :: rest ∧ lineFeed ∉ line := by
  unfold splitLine? at h
  split at h
  · cases h
  · next front rest hdrop =>
    cases h
    have hall := List.takeWhile_append_dropWhile (p := (· ≠ lineFeed)) (l := bytes)
    have hfront : front = lineFeed := by
      have hhead := List.head?_dropWhile_not (· ≠ lineFeed : UInt8 → Bool) bytes
      rw [hdrop] at hhead
      simpa using hhead
    refine ⟨?_, fun hmem => ?_⟩
    · rw [hdrop, hfront] at hall
      exact hall.symm
    · have hkept := List.all_eq_true.1 List.all_takeWhile _ hmem
      simp at hkept

/-- Bytes that come later do not change the line that is split off. -/
theorem splitLine?_append_right (h : splitLine? bytes = some (line, rest)) (more : List UInt8) :
    splitLine? (bytes ++ more) = some (line, rest ++ more) := by
  obtain ⟨rfl, hline⟩ := eq_of_splitLine? h
  rw [List.append_assoc]
  exact splitLine?_append hline _

namespace Lines

variable {lines after : Lines} {more : List UInt8}

/-- A reader of lines finds what a reader finds that has all bytes before it. -/
theorem readLines_of_line (h : lines.next = .line text after)
    (hmore : lines.isOpen = false → more = []) :
    readLines (lines.bytes ++ more) = text :: readLines (after.bytes ++ more) := by
  unfold next nextOf at h
  split at h
  · next line rest hsplit =>
    split at h
    · next found htext =>
      cases h
      exact readLines_of_split (splitLine?_append_right hsplit more) htext
    · cases h
  · next hsplit =>
    split at h
    · cases h
    · next hclosed =>
      rw [hmore (Bool.not_eq_true _ ▸ hclosed), List.append_nil, List.append_nil]
      split at h
      · cases h
      · next hbytes =>
        split at h
        · next found htext =>
          cases h
          rw [readLines_of_none hsplit, if_neg hbytes, htext,
            readLines_of_none (show splitLine? [] = none from rfl)]
          rfl
        · cases h

/-- After a line that cannot be read nothing is read, whatever comes. -/
theorem readLines_of_unreadable (h : lines.next = .unreadable)
    (hmore : lines.isOpen = false → more = []) : readLines (lines.bytes ++ more) = [] := by
  unfold next nextOf at h
  split at h
  · next line rest hsplit =>
    split at h
    · cases h
    · next htext =>
      exact Wire.readLines_of_unreadable (splitLine?_append_right hsplit more) htext
  · next hsplit =>
    split at h
    · cases h
    · next hclosed =>
      rw [hmore (Bool.not_eq_true _ ▸ hclosed), List.append_nil]
      split at h
      · cases h
      · next hbytes =>
        split at h
        · cases h
        · next htext =>
          rw [readLines_of_none hsplit, if_neg hbytes, htext]
          rfl

/-- Where a line was read, fewer bytes are left. -/
theorem length_lt_of_line (h : lines.next = .line text after) :
    after.bytes.length < lines.bytes.length ∧ after.isOpen = lines.isOpen := by
  unfold next nextOf at h
  split at h
  · next line rest hsplit =>
    split at h
    · cases h
      exact ⟨length_lt_of_splitLine? hsplit, rfl⟩
    · cases h
  · split at h
    · cases h
    · split at h
      · cases h
      · next hbytes =>
        split at h
        · cases h
          refine ⟨List.length_pos_iff.2 fun hnone => hbytes ?_, rfl⟩
          rw [hnone]
          rfl
        · cases h

/-- A reader is at the end when nothing is left and nothing can come. -/
theorem of_ended (h : lines.next = .ended) : lines.bytes = [] ∧ lines.isOpen = false := by
  unfold next nextOf at h
  split at h
  · split at h <;> cases h
  · split at h
    · cases h
    · next hclosed =>
      split at h
      · next hbytes => exact ⟨List.isEmpty_iff.1 hbytes, Bool.not_eq_true _ ▸ hclosed⟩
      · split at h <;> cases h

/-- Nobody waits for bytes that cannot come. -/
theorem next_ne_pending (hclosed : lines.isOpen = false) : lines.next ≠ .pending := by
  intro h
  unfold next nextOf at h
  split at h
  · split at h <;> cases h
  · rw [hclosed, if_neg Bool.false_ne_true] at h
    split at h
    · cases h
    · split at h <;> cases h

end Lines

end TriggerDesk.Wire
