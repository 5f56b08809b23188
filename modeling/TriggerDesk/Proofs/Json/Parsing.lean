import TriggerDesk.Proofs.Json.Grammar

/-!
# Reading follows the grammar

Under rules that read texts and numerals as a lexicon says, a document is read where the grammar
derives one, and what is read is derived (`scanWholeDocument_iff`). The steps that a reader is given
are enough because every step that passes no character is followed by one that does.
-/

namespace TriggerDesk.Json

variable {τ ν : Type} {rules : Rules τ ν} {lexicon : Lexicon τ ν} {depth : Option Nat} {fuel : Nat}
  {chars rest after before : List Char} {document : Document τ ν} {c : Char}

/-- Rules read texts and numerals as a lexicon says. -/
structure Rules.Reads (rules : Rules τ ν) (lexicon : Lexicon τ ν) : Prop where
  text : ∀ chars t rest, rules.text chars = .ok (t, rest) ↔
    ∃ body, chars = body ++ '"' :: rest ∧ lexicon.text body t
  number : ∀ numeral rest n, rules.number numeral rest = .ok n ↔ lexicon.number numeral n

/-- The strict rules give every text its characters and every numeral its value. -/
theorem reads_strict : Rules.strict.Reads .strict where
  text chars t rest := by
    refine ⟨fun h => ?_, ?_⟩
    · obtain ⟨⟨text, behind⟩, hscan, heq⟩ := map_eq_ok h
      cases heq
      obtain ⟨body, hchars, htext⟩ := scanText_iff.1 hscan
      exact ⟨body, hchars, by simpa [Lexicon.strict] using htext⟩
    · rintro ⟨body, rfl, htext⟩
      simp only [Rules.strict, scanText_of_isQuoted htext, Except.map, String.ofList_toList]
  number numeral rest n := by
    simp only [Rules.strict, Lexicon.strict]
    cases numeral.number? <;> simp

/-! ## Blanks -/

/-- Blanks are passed over. -/
theorem skipSpace_blank (h : Blank before) (rest : List Char) :
    skipSpace (before ++ rest) = skipSpace rest :=
  List.dropWhile_append_of_pos h

/-- In front of what is not blank there are only blanks. -/
theorem blank_takeWhile (chars : List Char) :
    ∃ before, Blank before ∧ chars = before ++ skipSpace chars :=
  ⟨chars.takeWhile isSpace, List.all_eq_true.1 List.all_takeWhile,
    List.takeWhile_append_dropWhile.symm⟩

/-- A document is read as it is without the blanks in front of it. -/
theorem scanDocument_blank (h : Blank before) (rest : List Char) :
    scanDocument rules depth (fuel + 1) (before ++ rest) =
      scanDocument rules depth (fuel + 1) rest := by
  rw [scanDocument, scanDocument, skipSpace_blank h]

/-- A numeral ends at blanks, and at what ends it behind them. -/
theorem EndsNumeral.blank (h : EndsNumeral rest) (hafter : Blank after) :
    EndsNumeral (after ++ rest) := by
  cases after with
  | nil => exact h
  | cons c more =>
    refine endsNumeral_cons ?_
    have hspace := hafter c List.mem_cons_self
    simp only [isSpace, Bool.or_eq_true, decide_eq_true_eq] at hspace
    rcases hspace with ((rfl | rfl) | rfl) | rfl <;> decide

/-- A numeral begins with a minus or a digit. -/
theorem IsNumeral.head {numeral : Numeral} (h : IsNumeral chars numeral) :
    ∃ c more, chars = c :: more ∧ (c = '-' ∨ c.isDigit = true) := by
  cases h with
  | @intro negative whole _ _ _ _ hwhole =>
    cases negative with
    | true => exact ⟨_, _, rfl, .inl rfl⟩
    | false =>
      cases whole with
      | nil => exact absurd rfl hwhole.ne
      | cons d more => exact ⟨d, _, rfl, .inr (hwhole.all d List.mem_cons_self)⟩

/-- A document starts with a character that is no blank and ends no array. -/
theorem Derives.head (h : Derives lexicon depth chars document) :
    ∃ c more, chars = c :: more ∧ isSpace c = false ∧ c ≠ ']' := by
  cases h with
  | null | trueWord | falseWord | text | noItems | items | noMembers | members =>
    exact ⟨_, _, rfl, rfl, by decide⟩
  | number hnumeral =>
    obtain ⟨c, more, rfl, hc⟩ := hnumeral.head
    refine ⟨c, more, rfl, not_isSpace_of_isNumeralChar ?_, ?_⟩
    · rcases hc with rfl | hc
      · rfl
      · exact isNumeralChar_of_isDigit hc
    · rintro rfl
      rcases hc with hc | hc <;> cases hc

/-! ## What is derived is read -/

/-- Some characters are read as a document wherever they stand, in as many steps as there are of
them. -/
def ReadAs (rules : Rules τ ν) (depth : Option Nat) (chars : List Char)
    (document : Document τ ν) : Prop :=
  (∃ c more, chars = c :: more ∧ isSpace c = false ∧ c ≠ ']') ∧
    ∀ fuel rest, chars.length ≤ fuel → EndsNumeral rest →
      scanDocument rules depth fuel (chars ++ rest) = .ok (document, rest)

/-- A document has at least one character. -/
theorem ReadAs.pos (h : ReadAs rules depth chars document) : 0 < chars.length := by
  obtain ⟨⟨c, more, rfl, _⟩, _⟩ := h
  exact Nat.succ_pos _

/-- What comes behind an item ends a numeral in it. -/
theorem endsNumeral_moreItems (hafter : Blank after) (items : List (Item τ ν))
    (rest : List Char) : EndsNumeral (after ++ (moreItems items ++ ']' :: rest)) := by
  refine EndsNumeral.blank ?_ hafter
  cases items with
  | nil => exact endsNumeral_cons (by decide)
  | cons item items =>
    rw [moreItems, List.flatMap_cons]
    exact endsNumeral_cons (by decide)

/-- Behind its blanks an item is read, up to the blanks that follow it. -/
theorem scanDocument_item {item : Item τ ν} (hpadded : item.Padded)
    (hread : ReadAs rules depth item.chars item.value) (hfuel : item.chars.length ≤ fuel)
    (hends : EndsNumeral (item.after ++ rest)) :
    ∃ c more, skipSpace (item.spelling ++ rest) = c :: more ∧ c ≠ ']' ∧
      scanDocument rules depth fuel (c :: more) = .ok (item.value, item.after ++ rest) := by
  obtain ⟨⟨c, more, hchars, hspace, hne⟩, hscan⟩ := hread
  refine ⟨c, more ++ (item.after ++ rest), ?_, hne, ?_⟩
  · rw [Item.spelling, List.append_assoc, skipSpace_blank hpadded.before, hchars]
    simp only [List.cons_append, List.append_assoc]
    exact skipSpace_cons hspace _
  · rw [← hscan fuel (item.after ++ rest) hfuel hends, hchars]
    rfl

/-- The characters of an item are those of its document and its blanks. -/
theorem length_spelling (item : Item τ ν) :
    item.spelling.length = item.before.length + (item.chars.length + item.after.length) := by
  rw [Item.spelling, List.length_append, List.length_append]

/-- Items behind the first one stand each behind a comma. -/
theorem moreItems_cons (item : Item τ ν) (items : List (Item τ ν)) :
    moreItems (item :: items) = ',' :: (item.spelling ++ moreItems items) := rfl

/-- The items behind the first one are read, if each of them is, up to the closing bracket. -/
theorem scanMoreItems_moreItems {items : List (Item τ ν)} (hafter : Blank after)
    (hpadded : ∀ item ∈ items, item.Padded)
    (hread : ∀ item ∈ items, ReadAs rules depth item.chars item.value)
    (hfuel : (moreItems items).length < fuel) (rest : List Char) :
    scanMoreItems rules depth fuel (after ++ (moreItems items ++ ']' :: rest)) =
      .ok (items.map (·.value), rest) := by
  induction items generalizing after fuel with
  | nil =>
    obtain ⟨fuel, rfl⟩ : ∃ n, fuel = n + 1 := ⟨fuel - 1, by omega⟩
    rw [scanMoreItems, skipSpace_blank hafter]
    rfl
  | cons item items ih =>
    obtain ⟨fuel, rfl⟩ : ∃ n, fuel = n + 1 := ⟨fuel - 1, by omega⟩
    have hitem := hread item List.mem_cons_self
    have hblanks := hpadded item List.mem_cons_self
    rw [moreItems_cons, List.length_cons, List.length_append, length_spelling] at hfuel
    have hrest := ih hblanks.after
      (fun other hother => hpadded other (List.mem_cons_of_mem _ hother))
      (fun other hother => hread other (List.mem_cons_of_mem _ hother))
      (show (moreItems items).length < fuel by omega)
    obtain ⟨c, more, hskip, hne, hscan⟩ := scanDocument_item hblanks hitem
      (show item.chars.length ≤ fuel by omega) (endsNumeral_moreItems hblanks.after items rest)
    rw [moreItems_cons, List.cons_append, List.append_assoc,
      scanMoreItems_head ((skipSpace_blank hafter _).trans (skipSpace_cons rfl _)) hskip hne, hscan]
    show (scanMoreItems rules depth fuel _ >>= _) = _
    rw [hrest]
    rfl

/-- An array is read if each of its items is. -/
theorem readAs_items (hdepth : depth ≠ some 0) {first : Item τ ν} {others : List (Item τ ν)}
    (hpadded : ∀ item ∈ first :: others, item.Padded)
    (hread : ∀ item ∈ first :: others, ReadAs rules (below depth) item.chars item.value) :
    ReadAs rules depth ('[' :: (first.spelling ++ (moreItems others ++ [']'])))
      (.array (first.value :: others.map (·.value))) := by
  refine ⟨⟨_, _, rfl, rfl, by decide⟩, fun fuel rest hfuel hends => ?_⟩
  have hitem := hread first List.mem_cons_self
  have hblanks := hpadded first List.mem_cons_self
  have hpos := hitem.pos
  simp only [List.length_cons, List.length_append, length_spelling, List.length_nil] at hfuel
  obtain ⟨fuel, rfl⟩ : ∃ n, fuel = n + 2 := ⟨fuel - 2, by omega⟩
  have hrest := scanMoreItems_moreItems hblanks.after
    (fun other hother => hpadded other (List.mem_cons_of_mem _ hother))
    (fun other hother => hread other (List.mem_cons_of_mem _ hother))
    (show (moreItems others).length < fuel by omega) rest
  obtain ⟨c, more, hskip, hne, hscan⟩ := scanDocument_item hblanks hitem
    (show first.chars.length ≤ fuel by omega) (endsNumeral_moreItems hblanks.after others rest)
  rw [List.cons_append, List.append_assoc, List.append_assoc, List.singleton_append]
  show (deeper _ depth >>= fun depth => scanItems rules depth (fuel + 1) _ >>= _) = _
  rw [deeper_eq_ok hdepth]
  show (scanItems rules (below depth) (fuel + 1) _ >>= _) = _
  rw [scanItems_head hskip hne, hscan]
  show ((scanMoreItems rules (below depth) fuel _ >>= _) >>= _) = _
  rw [hrest]
  rfl

/-- An array without items is read from its text. -/
theorem readAs_noItems (hdepth : depth ≠ some 0) {blanks : List Char} (hblank : Blank blanks) :
    ReadAs rules depth ('[' :: (blanks ++ [']'])) (.array []) := by
  refine ⟨⟨_, _, rfl, rfl, by decide⟩, fun fuel rest hfuel hends => ?_⟩
  simp only [List.length_cons, List.length_append, List.length_nil] at hfuel
  obtain ⟨fuel, rfl⟩ : ∃ n, fuel = n + 2 := ⟨fuel - 2, by omega⟩
  rw [List.cons_append, List.append_assoc]
  show (deeper _ depth >>= fun depth => scanItems rules depth (fuel + 1) _ >>= _) = _
  rw [deeper_eq_ok hdepth]
  show (scanItems rules (below depth) (fuel + 1) _ >>= _) = _
  rw [scanItems, skipSpace_blank hblank]
  rfl

/-- The characters of a member behind the opening quote of its name. -/
def Member.tail (member : Member τ ν) : List Char :=
  member.nameChars ++ ('"' :: (member.after ++ (':' :: member.item.spelling)))

/-- Behind the blanks, a member begins with the opening quote of its name. -/
theorem skipSpace_member {member : Member τ ν} (hblank : Blank member.before) (rest : List Char) :
    skipSpace (member.spelling ++ rest) = '"' :: (member.tail ++ rest) := by
  rw [Member.spelling, List.append_assoc, skipSpace_blank hblank]
  exact skipSpace_cons rfl _

/-- How long a member is. -/
theorem length_member (member : Member τ ν) :
    member.spelling.length = member.before.length + (member.tail.length + 1) := by
  rw [Member.spelling, List.length_append]
  rfl

/-- Behind the opening quote there is the rest of the name, blanks, the document and at least two
more characters. -/
theorem length_tail (member : Member τ ν) :
    member.nameChars.length + (member.after.length + (member.item.chars.length + 2)) ≤
      member.tail.length := by
  simp only [Member.tail, List.length_append, List.length_cons, length_spelling]
  omega

/-- A member is read, and then the members behind it. -/
theorem scanMember_member (hreads : rules.Reads lexicon) {member : Member τ ν}
    (hpadded : member.Padded lexicon)
    (hread : ReadAs rules depth member.item.chars member.item.value)
    (hfuel : member.item.chars.length ≤ fuel) (hends : EndsNumeral (member.item.after ++ rest)) :
    scanMember rules depth (fuel + 1) ('"' :: (member.tail ++ rest)) =
      (scanMoreMembers rules depth fuel (member.item.after ++ rest) >>= fun members =>
        .ok (member.entry :: members.1, members.2)) := by
  have hname := (hreads.text (member.tail ++ rest) member.name
    (member.after ++ (':' :: (member.item.spelling ++ rest)))).2
      ⟨member.nameChars, by simp [Member.tail], hpadded.name⟩
  have hcolon : scanColon (member.after ++ (':' :: (member.item.spelling ++ rest))) =
      .ok (member.item.spelling ++ rest) := by
    rw [scanColon, skipSpace_blank hpadded.after]
    rfl
  obtain ⟨fuel, rfl⟩ : ∃ n, fuel = n + 1 := ⟨fuel - 1, by have := hread.pos; omega⟩
  have hvalue : scanDocument rules depth (fuel + 1) (member.item.spelling ++ rest) =
      .ok (member.item.value, member.item.after ++ rest) := by
    rw [Item.spelling, List.append_assoc, scanDocument_blank hpadded.item.before,
      List.append_assoc]
    exact hread.2 _ _ hfuel hends
  rw [scanMember]
  show (rules.text _ >>= _) = _
  rw [hname]
  show (scanColon _ >>= _) = _
  rw [hcolon]
  show (scanDocument rules depth (fuel + 1) _ >>= _) = _
  rw [hvalue]
  rfl

/-- A reader of members comes to the opening quote of the first one. -/
theorem scanMembers_head {more : List Char} (hskip : skipSpace chars = '"' :: more) :
    scanMembers rules depth (fuel + 1) chars = scanMember rules depth fuel ('"' :: more) := by
  rw [scanMembers, hskip]
  rfl

/-- A reader of further members comes, behind a comma, to the opening quote of the next one. -/
theorem scanMoreMembers_head {more : List Char} (hcomma : skipSpace chars = ',' :: after)
    (hskip : skipSpace after = '"' :: more) :
    scanMoreMembers rules depth (fuel + 1) chars = scanMember rules depth fuel ('"' :: more) := by
  unfold scanMoreMembers
  simp only [hcomma, hskip]
  rfl

/-- A numeral ends in front of further members. -/
theorem endsNumeral_moreMembers (hafter : Blank after) (members : List (Member τ ν))
    (rest : List Char) : EndsNumeral (after ++ (moreMembers members ++ '\x7d' :: rest)) := by
  refine EndsNumeral.blank ?_ hafter
  cases members with
  | nil => exact endsNumeral_cons (by decide)
  | cons member members =>
    rw [moreMembers, List.flatMap_cons]
    exact endsNumeral_cons (by decide)

/-- Members behind the first one stand each behind a comma. -/
theorem moreMembers_cons (member : Member τ ν) (members : List (Member τ ν)) :
    moreMembers (member :: members) = ',' :: (member.spelling ++ moreMembers members) := rfl

/-- The members behind the first one are read, if the document of each of them is, up to the closing
bracket. -/
theorem scanMoreMembers_moreMembers (hreads : rules.Reads lexicon) {members : List (Member τ ν)}
    (hafter : Blank after) (hpadded : ∀ member ∈ members, member.Padded lexicon)
    (hread : ∀ member ∈ members, ReadAs rules depth member.item.chars member.item.value)
    (hfuel : (moreMembers members).length < fuel) (rest : List Char) :
    scanMoreMembers rules depth fuel (after ++ (moreMembers members ++ '\x7d' :: rest)) =
      .ok (members.map (·.entry), rest) := by
  induction members generalizing after fuel with
  | nil =>
    obtain ⟨fuel, rfl⟩ : ∃ n, fuel = n + 1 := ⟨fuel - 1, by omega⟩
    rw [scanMoreMembers, skipSpace_blank hafter]
    rfl
  | cons member members ih =>
    have hmember := hread member List.mem_cons_self
    have hblanks := hpadded member List.mem_cons_self
    have htail := length_tail member
    rw [moreMembers_cons, List.length_cons, List.length_append, length_member] at hfuel
    obtain ⟨fuel, rfl⟩ : ∃ n, fuel = n + 2 := ⟨fuel - 2, by omega⟩
    have hrest := ih hblanks.item.after
      (fun other hother => hpadded other (List.mem_cons_of_mem _ hother))
      (fun other hother => hread other (List.mem_cons_of_mem _ hother))
      (show (moreMembers members).length < fuel by omega)
    rw [moreMembers_cons, List.cons_append, List.append_assoc,
      scanMoreMembers_head ((skipSpace_blank hafter _).trans (skipSpace_cons rfl _))
        (skipSpace_member hblanks.before _),
      scanMember_member hreads hblanks hmember (by omega)
        (endsNumeral_moreMembers hblanks.item.after members rest), hrest]
    rfl

/-- An object is read if the document of each of its members is. -/
theorem readAs_members (hreads : rules.Reads lexicon) (hdepth : depth ≠ some 0)
    {first : Member τ ν} {others : List (Member τ ν)}
    (hpadded : ∀ member ∈ first :: others, member.Padded lexicon)
    (hread : ∀ member ∈ first :: others,
      ReadAs rules (below depth) member.item.chars member.item.value) :
    ReadAs rules depth ('\x7b' :: (first.spelling ++ (moreMembers others ++ ['\x7d'])))
      (.object (first.entry :: others.map (·.entry))) := by
  refine ⟨⟨_, _, rfl, rfl, by decide⟩, fun fuel rest hfuel hends => ?_⟩
  have hmember := hread first List.mem_cons_self
  have hblanks := hpadded first List.mem_cons_self
  have htail := length_tail first
  simp only [List.length_cons, List.length_append, length_member, List.length_nil] at hfuel
  obtain ⟨fuel, rfl⟩ : ∃ n, fuel = n + 3 := ⟨fuel - 3, by omega⟩
  have hrest := scanMoreMembers_moreMembers hreads hblanks.item.after
    (fun other hother => hpadded other (List.mem_cons_of_mem _ hother))
    (fun other hother => hread other (List.mem_cons_of_mem _ hother))
    (show (moreMembers others).length < fuel by omega) rest
  rw [List.cons_append, List.append_assoc, List.append_assoc, List.singleton_append]
  show (deeper _ depth >>= fun depth => scanMembers rules depth (fuel + 2) _ >>= _) = _
  rw [deeper_eq_ok hdepth]
  show (scanMembers rules (below depth) (fuel + 2) _ >>= _) = _
  have hends := endsNumeral_moreMembers hblanks.item.after others rest
  rw [scanMembers_head (skipSpace_member hblanks.before _),
    scanMember_member hreads hblanks hmember (by omega) hends, hrest]
  rfl

/-- An object without members is read from its text. -/
theorem readAs_noMembers (hdepth : depth ≠ some 0) {blanks : List Char} (hblank : Blank blanks) :
    ReadAs rules depth ('\x7b' :: (blanks ++ ['\x7d'])) (.object []) := by
  refine ⟨⟨_, _, rfl, rfl, by decide⟩, fun fuel rest hfuel hends => ?_⟩
  simp only [List.length_cons, List.length_append, List.length_nil] at hfuel
  obtain ⟨fuel, rfl⟩ : ∃ n, fuel = n + 2 := ⟨fuel - 2, by omega⟩
  rw [List.cons_append, List.append_assoc]
  show (deeper _ depth >>= fun depth => scanMembers rules depth (fuel + 1) _ >>= _) = _
  rw [deeper_eq_ok hdepth]
  show (scanMembers rules (below depth) (fuel + 1) _ >>= _) = _
  rw [scanMembers, skipSpace_blank hblank]
  rfl

/-- A document that is read in one step, whatever follows it, is read wherever it stands. -/
theorem scanDocument_succ {value : Document τ ν} (hhead : ∃ c more, chars = c :: more ∧
      isSpace c = false ∧ c ≠ ']')
    (hscan : ∀ fuel rest, EndsNumeral rest →
      scanDocument rules depth (fuel + 1) (chars ++ rest) = .ok (value, rest)) :
    ReadAs rules depth chars value := by
  refine ⟨hhead, fun fuel rest hfuel hends => ?_⟩
  obtain ⟨c, more, rfl, _⟩ := hhead
  rw [List.length_cons] at hfuel
  obtain ⟨fuel, rfl⟩ : ∃ n, fuel = n + 1 := ⟨fuel - 1, by omega⟩
  exact hscan fuel rest hends

/-- What is derived is read. -/
theorem readAs_of_derives (hreads : rules.Reads lexicon)
    (h : Derives lexicon depth chars document) : ReadAs rules depth chars document := by
  have hhead := h.head
  induction h with
  | null => exact scanDocument_succ hhead fun _ _ _ => rfl
  | trueWord => exact scanDocument_succ hhead fun _ _ _ => rfl
  | falseWord => exact scanDocument_succ hhead fun _ _ _ => rfl
  | number hnumeral hnumber =>
    refine scanDocument_succ hhead fun fuel rest hends => ?_
    obtain ⟨c, more, rfl, hc⟩ := hnumeral.head
    have hscan := scanNumeral_of_isNumeral hnumeral hends
    rw [List.cons_append] at hscan ⊢
    rw [scanDocument_numeral hc, hscan]
    show (rules.number _ rest >>= _) = _
    rw [(hreads.number _ rest _).2 hnumber]
    rfl
  | @text depth body t htext =>
    refine scanDocument_succ hhead fun fuel rest _ => ?_
    rw [List.cons_append, List.append_assoc, List.singleton_append]
    show (rules.text _ >>= _) = _
    rw [(hreads.text _ t rest).2 ⟨body, rfl, htext⟩]
    rfl
  | noItems hdepth hblank => exact readAs_noItems hdepth hblank
  | items hdepth hpadded hderives ih =>
    exact readAs_items hdepth hpadded fun item hitem => ih item hitem (hderives item hitem).head
  | noMembers hdepth hblank => exact readAs_noMembers hdepth hblank
  | members hdepth hpadded hderives ih =>
    exact readAs_members hreads hdepth hpadded fun member hmember =>
      ih member hmember (hderives member hmember).head

/-! ## What is read is derived -/

/-- Items that stand in an array in which so many brackets may be open. -/
structure DerivesItems (lexicon : Lexicon τ ν) (depth : Option Nat) (items : List (Item τ ν)) :
    Prop where
  padded : ∀ item ∈ items, item.Padded
  derives : ∀ item ∈ items, Derives lexicon depth item.chars item.value

structure DerivesMembers (lexicon : Lexicon τ ν) (depth : Option Nat)
    (members : List (Member τ ν)) : Prop where
  padded : ∀ member ∈ members, member.Padded lexicon
  derives : ∀ member ∈ members, Derives lexicon depth member.item.chars member.item.value

/-- Every array may stand without further items. -/
theorem DerivesItems.nil : DerivesItems lexicon depth [] := ⟨nofun, nofun⟩

/-- Every object may stand without further members. -/
theorem DerivesMembers.nil : DerivesMembers lexicon depth [] := ⟨nofun, nofun⟩

/-- One more item stands in an array if its document is derived. -/
theorem DerivesItems.cons {item : Item τ ν} {items : List (Item τ ν)} (hpadded : item.Padded)
    (hderives : Derives lexicon depth item.chars item.value)
    (h : DerivesItems lexicon depth items) : DerivesItems lexicon depth (item :: items) :=
  ⟨List.forall_mem_cons.2 ⟨hpadded, h.padded⟩, List.forall_mem_cons.2 ⟨hderives, h.derives⟩⟩

/-- One more member stands in an object if its document is derived. -/
theorem DerivesMembers.cons {member : Member τ ν} {members : List (Member τ ν)}
    (hpadded : member.Padded lexicon)
    (hderives : Derives lexicon depth member.item.chars member.item.value)
    (h : DerivesMembers lexicon depth members) : DerivesMembers lexicon depth (member :: members) :=
  ⟨List.forall_mem_cons.2 ⟨hpadded, h.padded⟩, List.forall_mem_cons.2 ⟨hderives, h.derives⟩⟩

/-- What so many reading steps find is derived from the characters that they pass. -/
structure Sound (rules : Rules τ ν) (lexicon : Lexicon τ ν) (fuel : Nat) : Prop where
  document : ∀ depth chars value rest, scanDocument rules depth fuel chars = .ok (value, rest) →
    ∃ before body, Blank before ∧ chars = before ++ (body ++ rest) ∧
      Derives lexicon depth body value
  items : ∀ depth chars values rest, scanItems rules depth fuel chars = .ok (values, rest) →
    (∃ blanks, Blank blanks ∧ chars = blanks ++ ']' :: rest ∧ values = []) ∨
      ∃ first others, chars = first.spelling ++ (moreItems others ++ ']' :: rest) ∧
        values = first.value :: others.map (·.value) ∧
        DerivesItems lexicon depth (first :: others)
  moreItems : ∀ depth chars values rest,
    scanMoreItems rules depth fuel chars = .ok (values, rest) →
    ∃ after others, Blank after ∧ chars = after ++ (moreItems others ++ ']' :: rest) ∧
      values = others.map (·.value) ∧ DerivesItems lexicon depth others
  members : ∀ depth chars entries rest, scanMembers rules depth fuel chars = .ok (entries, rest) →
    (∃ blanks, Blank blanks ∧ chars = blanks ++ '\x7d' :: rest ∧ entries = []) ∨
      ∃ first others, chars = first.spelling ++ (moreMembers others ++ '\x7d' :: rest) ∧
        entries = first.entry :: others.map (·.entry) ∧
        DerivesMembers lexicon depth (first :: others)
  member : ∀ depth chars entries rest, scanMember rules depth fuel chars = .ok (entries, rest) →
    ∃ first others, first.before = [] ∧
      chars = first.spelling ++ (moreMembers others ++ '\x7d' :: rest) ∧
      entries = first.entry :: others.map (·.entry) ∧
      DerivesMembers lexicon depth (first :: others)
  moreMembers : ∀ depth chars entries rest,
    scanMoreMembers rules depth fuel chars = .ok (entries, rest) →
    ∃ after others, Blank after ∧ chars = after ++ (moreMembers others ++ '\x7d' :: rest) ∧
      entries = others.map (·.entry) ∧ DerivesMembers lexicon depth others

/-- The letters of a word that is read stood in front of the rest. -/
theorem eq_append_of_scanLiteral {letters : List Char} (h : scanLiteral letters chars = .ok rest) :
    chars = letters ++ rest := by
  induction letters generalizing chars with
  | nil =>
    cases h
    rfl
  | cons letter letters ih =>
    cases chars with
    | nil => cases h
    | cons c chars =>
      rw [scanLiteral] at h
      split at h
      · next heq => rw [heq, ih h, List.cons_append]
      · cases h

/-- A bracket may be opened if not all are open already, and then one fewer is left. -/
theorem eq_of_deeper {inner : Option Nat} (h : deeper chars depth = .ok inner) :
    depth ≠ some 0 ∧ inner = below depth := by
  match depth with
  | none =>
    cases h
    exact ⟨nofun, rfl⟩
  | some 0 => cases h
  | some (n + 1) =>
    cases h
    exact ⟨nofun, rfl⟩

/-- With one more step, a document that is read is derived from the characters behind its blanks. -/
theorem Sound.document_succ (h : Sound rules lexicon fuel) (hreads : rules.Reads lexicon)
    (depth : Option Nat) (chars : List Char) (value : Document τ ν) (rest : List Char)
    (hscan : scanDocument rules depth (fuel + 1) chars = .ok (value, rest)) :
    ∃ before body, Blank before ∧ chars = before ++ (body ++ rest) ∧
      Derives lexicon depth body value := by
  obtain ⟨before, hblank, hchars⟩ := blank_takeWhile chars
  -- The blanks in front belong to the item, so only the characters behind them are derived.
  suffices hbody : ∃ body, skipSpace chars = body ++ rest ∧ Derives lexicon depth body value by
    obtain ⟨body, hskip, hderives⟩ := hbody
    exact ⟨before, body, hblank, by rw [← hskip, ← hchars], hderives⟩
  rw [scanDocument] at hscan
  split at hscan
  · cases hscan
  · next hskip =>
    obtain ⟨_, hletters, hscan⟩ := bind_eq_ok hscan
    cases hscan
    exact ⟨_, by rw [hskip, eq_append_of_scanLiteral hletters]; rfl, .null⟩
  · next hskip =>
    obtain ⟨_, hletters, hscan⟩ := bind_eq_ok hscan
    cases hscan
    exact ⟨_, by rw [hskip, eq_append_of_scanLiteral hletters]; rfl, .trueWord⟩
  · next hskip =>
    obtain ⟨_, hletters, hscan⟩ := bind_eq_ok hscan
    cases hscan
    exact ⟨_, by rw [hskip, eq_append_of_scanLiteral hletters]; rfl, .falseWord⟩
  · next hskip =>
    obtain ⟨⟨t, behind⟩, htext, hscan⟩ := bind_eq_ok hscan
    cases hscan
    obtain ⟨body, hbody, hlexicon⟩ := (hreads.text _ _ _).1 htext
    exact ⟨_, by rw [hskip, hbody]; simp, .text hlexicon⟩
  · next hskip =>
    obtain ⟨_, hdeeper, hscan⟩ := bind_eq_ok hscan
    obtain ⟨⟨values, behind⟩, hitems, hscan⟩ := bind_eq_ok hscan
    cases hscan
    obtain ⟨hdepth, rfl⟩ := eq_of_deeper hdeeper
    rcases h.items _ _ _ _ hitems with
      ⟨blanks, hblanks, hbody, rfl⟩ | ⟨first, others, hbody, rfl, hall⟩
    · exact ⟨_, by rw [hskip, hbody]; simp, .noItems hdepth hblanks⟩
    · exact ⟨_, by rw [hskip, hbody]; simp, .items hdepth hall.padded hall.derives⟩
  · next hskip =>
    obtain ⟨_, hdeeper, hscan⟩ := bind_eq_ok hscan
    obtain ⟨⟨entries, behind⟩, hmembers, hscan⟩ := bind_eq_ok hscan
    cases hscan
    obtain ⟨hdepth, rfl⟩ := eq_of_deeper hdeeper
    rcases h.members _ _ _ _ hmembers with
      ⟨blanks, hblanks, hbody, rfl⟩ | ⟨first, others, hbody, rfl, hall⟩
    · exact ⟨_, by rw [hskip, hbody]; simp, .noMembers hdepth hblanks⟩
    · exact ⟨_, by rw [hskip, hbody]; simp, .members hdepth hall.padded hall.derives⟩
  · next hskip =>
    split at hscan
    · obtain ⟨⟨numeral, behind⟩, hnumeral, hscan⟩ := bind_eq_ok hscan
      obtain ⟨n, hn, hscan⟩ := bind_eq_ok hscan
      cases hscan
      obtain ⟨body, hbody, hspelled⟩ := isNumeral_of_scanNumeral hnumeral
      exact ⟨body, by rw [hskip, hbody], .number hspelled ((hreads.number _ _ _).1 hn)⟩
    · cases hscan

/-- An item that starts behind some blanks, and the items behind it. -/
theorem Sound.item (h : Sound rules lexicon fuel) {values : List (Document τ ν)}
    (hbefore : Blank before)
    (hscan : (scanDocument rules depth fuel chars >>= fun item =>
      scanMoreItems rules depth fuel item.2 >>= fun items =>
        .ok (item.1 :: items.1, items.2)) = .ok (values, rest)) :
    ∃ first others, before ++ chars = first.spelling ++ (Json.moreItems others ++ ']' :: rest) ∧
      values = first.value :: others.map (·.value) ∧
      DerivesItems lexicon depth (first :: others) := by
  obtain ⟨⟨value, behind⟩, hvalue, hscan⟩ := bind_eq_ok hscan
  obtain ⟨⟨found, last⟩, hfound, hscan⟩ := bind_eq_ok hscan
  cases hscan
  obtain ⟨blanks, body, hblanks, rfl, hderives⟩ := h.document _ _ _ _ hvalue
  obtain ⟨after, others, hafter, hbehind, hothers, hall⟩ := h.moreItems _ _ _ _ hfound
  dsimp only at hbehind hothers
  refine ⟨⟨before ++ blanks, body, after, value⟩, others, ?_, by rw [← hothers],
    .cons ⟨List.forall_mem_append.2 ⟨hbefore, hblanks⟩, hafter⟩ hderives hall⟩
  simp [Item.spelling, hbehind]

/-- With one more step, so are the members that are read from an opening quote on. -/
theorem Sound.member_succ (h : Sound rules lexicon fuel) (hreads : rules.Reads lexicon)
    (depth : Option Nat) (chars : List Char) (entries : List (τ × Document τ ν))
    (rest : List Char) (hscan : scanMember rules depth (fuel + 1) chars = .ok (entries, rest)) :
    ∃ first others, first.before = [] ∧
      chars = first.spelling ++ (Json.moreMembers others ++ '\x7d' :: rest) ∧
      entries = first.entry :: others.map (·.entry) ∧
      DerivesMembers lexicon depth (first :: others) := by
  unfold scanMember at hscan
  split at hscan
  · obtain ⟨⟨name, behindName⟩, hname, hscan⟩ := bind_eq_ok hscan
    obtain ⟨behindColon, hcolon, hscan⟩ := bind_eq_ok hscan
    obtain ⟨⟨value, behindValue⟩, hvalue, hscan⟩ := bind_eq_ok hscan
    obtain ⟨⟨found, last⟩, hfound, hscan⟩ := bind_eq_ok hscan
    cases hscan
    obtain ⟨nameChars, rfl, hlexicon⟩ := (hreads.text _ _ _).1 hname
    obtain ⟨gap, hgap, hbehindName⟩ := blank_takeWhile behindName
    have hcolon : skipSpace behindName = ':' :: behindColon := by
      unfold scanColon at hcolon
      split at hcolon
      · next hskip =>
        cases hcolon
        exact hskip
      · cases hcolon
      · cases hcolon
    obtain ⟨blanks, body, hblanks, rfl, hderives⟩ := h.document _ _ _ _ hvalue
    obtain ⟨after, others, hafter, hbehind, hothers, hall⟩ := h.moreMembers _ _ _ _ hfound
    refine ⟨⟨[], nameChars, gap, name, ⟨blanks, body, after, value⟩⟩, others, rfl, ?_,
      by rw [← hothers]; rfl, .cons ⟨nofun, hgap, hlexicon, hblanks, hafter⟩ hderives hall⟩
    rw [hcolon] at hbehindName
    simp [Member.spelling, Item.spelling, hbehindName, hbehind]
  · cases hscan

/-- Blanks in front of the first member belong to it. -/
theorem DerivesMembers.indent {first : Member τ ν} {others : List (Member τ ν)}
    (h : DerivesMembers lexicon depth (first :: others)) (hfirst : first.before = [])
    (hblank : Blank before) :
    { first with before }.spelling = before ++ first.spelling ∧
      DerivesMembers lexicon depth ({ first with before } :: others) := by
  obtain ⟨hpadded, hothers⟩ := List.forall_mem_cons.1 h.padded
  obtain ⟨hderives, hmore⟩ := List.forall_mem_cons.1 h.derives
  refine ⟨?_, List.forall_mem_cons.2 ⟨⟨hblank, hpadded.after, hpadded.name, hpadded.item⟩, hothers⟩,
    List.forall_mem_cons.2 ⟨hderives, hmore⟩⟩
  rw [Member.spelling, Member.spelling, hfirst, List.nil_append]

/-- With one more step, whatever is read is derived. -/
theorem sound_succ (h : Sound rules lexicon fuel) (hreads : rules.Reads lexicon) :
    Sound rules lexicon (fuel + 1) where
  document := h.document_succ hreads
  items depth chars values rest hscan := by
    obtain ⟨before, hblank, hchars⟩ := blank_takeWhile chars
    rw [scanItems] at hscan
    split at hscan
    · cases hscan
    · next hskip =>
      cases hscan
      exact .inl ⟨before, hblank, by rw [← hskip, ← hchars], rfl⟩
    · rw [hchars]
      exact .inr (h.item hblank hscan)
  moreItems depth chars values rest hscan := by
    obtain ⟨before, hblank, hchars⟩ := blank_takeWhile chars
    rw [scanMoreItems] at hscan
    split at hscan
    · cases hscan
    · next hskip =>
      cases hscan
      exact ⟨before, [], hblank, by rw [hchars, hskip]; rfl, rfl, .nil⟩
    · next more hskip =>
      obtain ⟨blanks, hblanks, hmore⟩ := blank_takeWhile more
      split at hscan
      · cases hscan
      · cases hscan
      · obtain ⟨first, others, hbody, rfl, hall⟩ := h.item hblanks hscan
        refine ⟨before, first :: others, hblank, ?_, rfl, hall⟩
        rw [hchars, hskip, hmore, hbody, moreItems_cons]
        simp
    · cases hscan
  members depth chars entries rest hscan := by
    obtain ⟨before, hblank, hchars⟩ := blank_takeWhile chars
    rw [scanMembers] at hscan
    split at hscan
    · cases hscan
    · next hskip =>
      cases hscan
      exact .inl ⟨before, hblank, by rw [← hskip, ← hchars], rfl⟩
    · obtain ⟨first, others, hfirst, hbody, rfl, hall⟩ := h.member _ _ _ _ hscan
      -- The member is scanned from its name on, so the blanks that were skipped are put in front.
      obtain ⟨hspelling, hall⟩ := hall.indent hfirst hblank
      refine .inr ⟨{ first with before }, others, ?_, rfl, hall⟩
      rw [hspelling, List.append_assoc, ← hbody, ← hchars]
  member := h.member_succ hreads
  moreMembers depth chars entries rest hscan := by
    obtain ⟨before, hblank, hchars⟩ := blank_takeWhile chars
    rw [scanMoreMembers] at hscan
    split at hscan
    · cases hscan
    · next hskip =>
      cases hscan
      exact ⟨before, [], hblank, by rw [hchars, hskip]; rfl, rfl, .nil⟩
    · next more hskip =>
      obtain ⟨blanks, hblanks, hmore⟩ := blank_takeWhile more
      split at hscan
      · cases hscan
      · cases hscan
      · obtain ⟨first, others, hfirst, hbody, rfl, hall⟩ := h.member _ _ _ _ hscan
        obtain ⟨hspelling, hall⟩ := hall.indent hfirst hblanks
        refine ⟨before, { first with before := blanks } :: others, hblank, ?_, rfl, hall⟩
        rw [hchars, hskip, hmore, hbody, moreMembers_cons, hspelling]
        simp
    · cases hscan

/-- With any number of steps, whatever is read is derived. -/
theorem sound (hreads : rules.Reads lexicon) (fuel : Nat) : Sound rules lexicon fuel := by
  induction fuel with
  | zero => exact ⟨nofun, nofun, nofun, nofun, nofun, nofun⟩
  | succ fuel ih => exact sound_succ ih hreads

/-- A whole text is read as what the grammar derives it from, and as nothing else. -/
theorem scanWholeDocument_iff (hreads : rules.Reads lexicon) :
    scanWholeDocument rules chars = .ok document ↔
      DerivesWhole lexicon rules.depth chars document := by
  constructor
  · intro h
    obtain ⟨⟨found, behind⟩, hscan, h⟩ := bind_eq_ok h
    obtain ⟨before, body, hbefore, hchars, hderives⟩ :=
      (sound hreads _).document _ _ _ _ hscan
    obtain ⟨after, hafter, hbehind⟩ := blank_takeWhile behind
    dsimp only at h
    split at h
    · next hskip =>
      cases h
      rw [hskip, List.append_nil] at hbehind
      subst hbehind
      exact ⟨⟨before, body, behind, document⟩, hchars.symm, rfl, ⟨hbefore, hafter⟩, hderives⟩
    · cases h
  · rintro ⟨item, rfl, rfl, hpadded, hderives⟩
    -- The reader gets more steps than the derivation needs, which is bounded by the length.
    have hlength := length_spelling item
    have hends : EndsNumeral (item.after ++ []) := EndsNumeral.blank nofun hpadded.after
    have hscan := (readAs_of_derives hreads hderives).2 (readingSteps item.spelling)
      (item.after ++ []) (by unfold readingSteps; omega) hends
    have hskip : skipSpace (item.after ++ []) = [] := skipSpace_blank hpadded.after []
    have hwhole : scanDocument rules rules.depth (readingSteps item.spelling) item.spelling =
        .ok (item.value, item.after ++ []) := by
      rw [List.append_nil] at hscan ⊢
      rw [← hscan, show readingSteps item.spelling = (3 * item.spelling.length + 2) + 1 from rfl,
        Item.spelling]
      exact scanDocument_blank hpadded.before _
    unfold scanWholeDocument
    rw [hwhole]
    simp only [bind, Except.bind, hskip]
    rfl

end TriggerDesk.Json
