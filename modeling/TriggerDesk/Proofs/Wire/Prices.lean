import TriggerDesk.Proofs.Json.Rereading
import TriggerDesk.Proofs.Wire.Messages

/-!
# Prices on the wire

A command with a finite price comes through its line as the same command with the price that the
reader makes of the text, and never as a rejection (`conveys_finite`). Which price that is is said
by the digits in the text (`Wire.price_conveyed`): it is close to the price that was sent and is
that price if few digits are written, but not every price comes back (`Wire.price_misread`). A
price that is not finite is written as `null`, and its line is rejected with the id of the order
(`conveys_nonfinite`). Events with finite numbers are understood by the client
(`understood_of_isFinite`).
-/

namespace TriggerDesk

open Json TriggerDesk.Order

variable {command : Command} {event : Event} {depth : Option Nat} {p q : Float}

/-! ## What numbers are read as -/

/-- The number that the text of a number is read as. -/
def Json.Number.reread (n : Number) : Number :=
  match scanNumeral (Value.writeNumber n) with
  | .ok (numeral, _) => numeral.number?.getD n
  | .error _ => n

/-- The number that a written number spells is the one that it is read as. -/
theorem Json.Spells.reread_eq {n m : Number} (h : Spells (Value.writeNumber n) m) :
    n.reread = m := by
  obtain ⟨numeral, hscan, hnumber⟩ := h.scans
  rw [Number.reread, hscan]
  show numeral.number?.getD n = m
  rw [hnumber, Option.getD_some]

/-- A number that is written spells the number that it is read as. -/
theorem Json.Spells.spells_reread {n m : Number} (h : Spells (Value.writeNumber n) m) :
    Spells (Value.writeNumber n) n.reread := by
  rw [h.reread_eq]
  exact h

/-- A number comes back if it is read as itself. -/
theorem Json.Spells.readsBack_iff (h : Spells (Value.writeNumber (.real p)) (.real q)) :
    Json.ReadsBack p ↔ q = p := by
  have hread : readValue (Decimal.Layout.json.write p) = .ok (.number (.real q)) := by
    have hreadable : Value.ReadableAs Number.reread (some 127) (.number (.real p)) :=
      h.spells_reread
    have hvalue := readValue_writeAs hreadable
    rw [Value.write, Value.chars, Value.writeNumber, String.ofList_toList] at hvalue
    rw [hvalue, ← h.reread_eq]
    rfl
  constructor
  · rintro ⟨number, hnumber, hvalue⟩
    rw [hread] at hnumber
    cases hnumber
    exact hvalue
  · rintro rfl
    exact ⟨_, hread, rfl⟩

/-- Texts are kept as they are, whatever becomes of numbers. -/
theorem imageItems_texts (meaning : Number → Number) (texts : List String) :
    Value.imageItems id meaning (texts.map .text) = texts.map .text := by
  induction texts with
  | nil => rfl
  | cons text rest ih => exact congrArg (List.cons _) ih

/-! ## Commands -/

/-- A command with a finite price can be read where arrays and objects may still be nested. -/
theorem readableAs_command (h : Spells (Value.writeNumber (.real command.price)) (.real q))
    (hdepth : depth ≠ some 0) (hbelow : below depth ≠ some 0) :
    command.toJson.ReadableAs Number.reread depth :=
  readableAs_pricedAs h.spells_reread hdepth hbelow

/-- What comes of a command is the command at the price that is read. -/
theorem image_command (h : Spells (Value.writeNumber (.real command.price)) (.real q)) :
    command.toJson.image id Number.reread = { command with price := q }.toJson := by
  have hitems := imageItems_texts Number.reread command.brokers
  simp only [Command.toJson, Value.image, Value.imageMembers, hitems, h.reread_eq, id]

/-- A command is read with the price that its text is read as. -/
theorem conveys_spelled (h : Spells (Value.writeNumber (.real command.price)) (.real q)) :
    Conveys command.toJson.write Wire.decodeLine (.ok { command with price := q }) where
  oneLine := isOneLine_write (readableAs_command h (show none ≠ some 0 from nofun) nofun)
  notBlank := notBlank_object _
  reads := by
    have hreadable : command.toJson.ReadableAs Number.reread (some 127) :=
      readableAs_command h (by decide) (by decide)
    have hread := readValue_writeAs hreadable
    rw [image_command h] at hread
    simp only [Wire.decodeLine, hread, unsupportedKind?_sorted, readCommand_sorted]

/-- No command with a finite price is rejected for its line. -/
theorem conveys_finite (h : command.price.isFinite = true) :
    ∃ negative a decimal q, Rereads command.price negative a decimal q ∧
      Conveys command.toJson.write Wire.decodeLine (.ok { command with price := q }) := by
  obtain ⟨negative, a, decimal, q, hrereads⟩ := rereads h
  exact ⟨negative, a, decimal, q, hrereads, conveys_spelled hrereads.spells⟩

/-! ## Prices that are not finite -/

/-- A number that is not finite is written as `null`. -/
theorem writeNumber_nonfinite (h : p.isFinite = false) :
    Value.writeNumber (.real p) = "null".toList := by
  show (Decimal.Layout.json.write p).toList = _
  unfold Decimal.Layout.write
  split
  · rfl
  · rfl
  · rfl
  · next negative m e hfinite =>
    have hstands : Decimal.Stands p negative (m * 2 ^ e) := ⟨m, e, hfinite, rfl⟩
    rw [hstands.isFinite] at h
    cases h

/-- A command whose price is not finite is written with `null` for its price. -/
theorem write_nonfinite (h : command.price.isFinite = false) :
    command.toJson.write = Value.write (command.pricedAs .null) := by
  rw [Value.write, Value.write]
  simp only [Command.toJson, Command.pricedAs, Value.chars, Value.memberChars,
    writeNumber_nonfinite h]

/-- The line of a command whose price is not finite is rejected, with the id of the order. -/
theorem conveys_nonfinite (h : command.price.isFinite = false) :
    Conveys command.toJson.write Wire.decodeLine (.error (Event.rejectedLine command.oid
      "invalid command: invalid type: null, expected f64")) := by
  have hreadable : ∀ {depth : Option Nat}, depth ≠ some 0 → below depth ≠ some 0 →
      (command.pricedAs .null).ReadableAs id depth := readableAs_pricedAs trivial
  rw [write_nonfinite h]
  refine ⟨isOneLine_write (hreadable (show none ≠ some 0 from nofun) nofun), notBlank_object _, ?_⟩
  have hread := readValue_write (hreadable (show some 127 ≠ some 0 by decide) (by decide))
  have hcommand : Wire.readCommand (Value.sorted (command.pricedAs .null)) =
      .error (.type .null .number) := readCommand_pricedAs command rfl
  have hnull : Value.sorted .null = .null := rfl
  simp only [Wire.decodeLine, hread, unsupportedKind?_pricedAs command hnull, hcommand,
    oidOf_pricedAs command hnull]
  rfl

/-! ## Events -/

/-- The members of an object are changed one by one. -/
theorem imageMembers_eq_map (meaning : Number → Number) (members : List (String × Value)) :
    Value.imageMembers id meaning members =
      members.map fun member => (member.1, member.2.image id meaning) := by
  induction members with
  | nil => rfl
  | cons member rest ih => exact congrArg (List.cons _) ih

/-- What may be left out is left out of what comes of an object, and what is there is changed. -/
theorem map_optionalMember (change : Value → Value) (name : String) (value : Option Value) :
    (Value.optionalMember name value).map (fun member => (member.1, change member.2)) =
      Value.optionalMember name (value.map change) := by
  cases value <;> rfl

/-- What comes of an event is the event at the price and the level that are read, with its index as
it is. -/
theorem image_event {level : Float}
    (hprice : Spells (Value.writeNumber (.real event.price)) (.real q))
    (hlevel : Spells (Value.writeNumber (.real event.level)) (.real level))
    (hindex : ∀ i, event.index = some i → IsInt64 i) :
    event.toJson.image id Number.reread = { event with price := q, level }.toJson := by
  have hnumber : (event.index.map fun i => (Document.number (.ofInt i) : Value)).map
      (Value.image id Number.reread) = event.index.map fun i => .number (.ofInt i) := by
    cases hsome : event.index with
    | none => rfl
    | some i =>
      have hi := (spells_ofInt (hindex i hsome)).reread_eq
      exact congrArg (fun n => some (Document.number n)) hi
  rw [Event.toJson, Value.image, imageMembers_eq_map]
  simp only [List.map_append, map_optionalMember, hnumber, Option.map_map]
  simp only [Event.toJson, List.map_cons, List.map_nil, Value.image, hprice.reread_eq,
    hlevel.reread_eq, Function.comp_def, id]

/-- The client understands an event whose price and level are finite. -/
theorem understood_of_isFinite (hprice : event.price.isFinite = true)
    (hlevel : event.level.isFinite = true) (hindex : ∀ i, event.index = some i → IsInt64 i) :
    ∃ price level, Conveys (Wire.Connection.eventLine event) Event.ofLine?
      (some { event with price, level }) := by
  obtain ⟨_, _, _, price, hrereads⟩ := rereads hprice
  obtain ⟨_, _, _, level, hrereads'⟩ := rereads hlevel
  have hreadable : event.toJson.ReadableAs Number.reread none :=
    readableAs_event hrereads.spells.spells_reread hrereads'.spells.spells_reread
      (fun i hi => (spells_ofInt (hindex i hi)).spells_reread) nofun
  refine ⟨price, level, isOneLine_write hreadable, notBlank_object _, ?_⟩
  rw [Event.ofLine?, Wire.Connection.eventLine, readLenient?_writeAs hreadable,
    image_event hrereads.spells hrereads'.spells hindex]
  exact ofJson?_event hindex

/-! ## Every finite price -/

/-- What becomes of a finite price: the line of the command is read as the same command with the
price `q`, and an order is armed and acknowledged at that level. The price is the one that was sent
if the reader makes the same number of the digits and the power of ten in the text
(`Rereads.text`). It does if both are exact, and it is always close. -/
theorem Wire.price_conveyed (h : command.price.isFinite = true) :
    ∃ negative a decimal q, Rereads command.price negative a decimal q ∧
      Conveys command.toJson.write Wire.decodeLine (.ok { command with price := q }) ∧
      (∀ last, (Pending.ofCommand { command with price := q } last).trigger.level = q) ∧
      (∀ direction, (Event.ack { command with price := q } direction).level = q) ∧
      (q = command.price ↔ decimal.reading = a) ∧
      (Json.ReadsBack command.price ↔ decimal.reading = a) ∧
      (decimal.kept < 2 ^ 53 → -22 ≤ decimal.power ∧ decimal.power ≤ 22 → q = command.price) ∧
      |decimal.reading - a| ≤ a / 2 ^ 47 + 2 ^ (-1073 : ℤ) := by
  obtain ⟨negative, a, decimal, q, hrereads, hconveys⟩ := conveys_finite h
  exact ⟨negative, a, decimal, q, hrereads, hconveys, fun _ => rfl, fun _ => rfl,
    hrereads.eq_iff, hrereads.spells.readsBack_iff.trans hrereads.eq_iff,
    fun hkept hpower => hrereads.eq_of_exact hkept hpower, hrereads.abs_sub_le⟩

/-- Seventeen digits, of which the reader keeps all and rounds twice. -/
theorem Wire.price_conveyed_long :
    (111.21000000000001 : Float).isFinite = true ∧
      ∃ negative a decimal q, Rereads 111.21000000000001 negative a decimal q ∧
        Conveys (Command.mk .alert "o" "X" ["B"] 111.21000000000001).toJson.write Wire.decodeLine
          (.ok ⟨.alert, "o", "X", ["B"], q⟩) ∧
        (∀ last, (Pending.ofCommand ⟨.alert, "o", "X", ["B"], q⟩ last).trigger.level = q) ∧
        (∀ direction, (Event.ack ⟨.alert, "o", "X", ["B"], q⟩ direction).level = q) ∧
        (q = 111.21000000000001 ↔ decimal.reading = a) ∧
        (Json.ReadsBack 111.21000000000001 ↔ decimal.reading = a) ∧
        (decimal.kept < 2 ^ 53 → -22 ≤ decimal.power ∧ decimal.power ≤ 22 →
          q = 111.21000000000001) ∧
        |decimal.reading - a| ≤ a / 2 ^ 47 + 2 ^ (-1073 : ℤ) := by
  have hfinite : (111.21000000000001 : Float).isFinite = true := by decide +kernel
  exact ⟨hfinite, @Wire.price_conveyed ⟨.alert, "o", "X", ["B"], 111.21000000000001⟩ hfinite⟩

/-- The price of that command does not come back: its line is read as one at another level. -/
theorem Wire.price_misread :
    (111.21000000000001 : Float).isFinite = true ∧ (111.21 : Float) ≠ 111.21000000000001 ∧
      Wire.decodeLine (Command.mk .alert "o" "X" ["B"] 111.21000000000001).toJson.write =
        .ok ⟨.alert, "o", "X", ["B"], 111.21⟩ := by
  refine ⟨by decide +kernel, by decide +kernel, ?_⟩
  have hread : (Wire.decodeLine
      (Command.mk .alert "o" "X" ["B"] 111.21000000000001).toJson.write).toOption =
        some ⟨.alert, "o", "X", ["B"], 111.21⟩ := by
    decide +kernel
  generalize Wire.decodeLine _ = result at hread ⊢
  cases result with
  | error event => cases hread
  | ok command => exact congrArg Except.ok (Option.some.inj hread)

end TriggerDesk
