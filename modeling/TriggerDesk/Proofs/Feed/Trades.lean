import TriggerDesk.Feed.Exchange
import TriggerDesk.Proofs.Wire.Decoding

/-!
# The trades that frames report

What a frame of an exchange has to be for a price to come of it (`Reports`): a JSON object of a
trade of the symbol, with a valid price. The reader gives that price and no other
(`reportedPrice?_eq_some`). What else stands in the object makes no difference, and the quantity of
the trade is not among what it has to be.
-/

namespace TriggerDesk

open Json

namespace Market

variable {symbol frame name text : String} {price : Float} {document value : Value} {trade : Trade}

/-- A frame is an object of a trade of a symbol at a price, as its last members say. -/
inductive ReportsTrade (symbol frame : String) (price : Float) : Prop where
  | object {members : List (String × Value)} {name text : String} :
      Wire.IsJson frame (.object members) → lastMember? members "e" = some (.text "aggTrade") →
      lastMember? members "s" = some (.text name) → sameSymbol name symbol = true →
      lastMember? members "p" = some (.text text) → Decimal.readFloat? text = some price →
      ReportsTrade symbol frame price

/-- A frame reports a price of a symbol: a trade, at a price that is finite and not negative. -/
structure Reports (symbol frame : String) (price : Float) : Prop where
  trade : ReportsTrade symbol frame price
  finite : price.isFinite = true
  nonneg : 0 ≤ price

/-- The price of a symbol that a frame reports. -/
def reportedPrice? (symbol frame : String) : Option Float :=
  (Trade.ofFrame? frame).bind fun trade =>
    if sameSymbol trade.symbol symbol && isValidPrice trade.tick.price then
      some trade.tick.price
    else none

/-- Sorting the members of objects leaves the text of a value. -/
theorem text?_sorted (value : Value) : (Value.sorted value).text? = value.text? := by
  cases value <;> rfl

/-- Only a text has a text. -/
theorem text?_eq_some : value.text? = some text ↔ value = .text text := by
  cases value with
  | text found =>
    exact ⟨fun h => congrArg Document.text (Option.some_inj.1 h), fun h => by cases h; rfl⟩
  | null | bool | number | array | object => exact iff_of_false nofun nofun

/-- A text is looked up among the members as they stand in the frame. -/
theorem textMember?_sorted :
    textMember? (Value.sorted document) name = some text ↔
      ∃ members, document = .object members ∧ lastMember? members name = some (.text text) := by
  unfold textMember?
  cases document with
  | object members =>
    rw [member?_sorted]
    cases hmember : lastMember? members name with
    | none =>
      refine iff_of_false nofun ?_
      rintro ⟨_, heq, hlast⟩
      cases heq
      cases hmember.symm.trans hlast
    | some value =>
      rw [Option.map_some, Option.bind_some, text?_sorted, text?_eq_some]
      constructor
      · rintro rfl
        exact ⟨members, rfl, hmember⟩
      · rintro ⟨_, heq, hlast⟩
        cases heq
        exact Option.some_inj.1 (hmember.symm.trans hlast)
  | null | bool | number | text | array =>
    refine iff_of_false nofun ?_
    rintro ⟨_, heq, -⟩
    cases heq

/-- The trade of a value, with its symbol and its price, whatever its quantity is. -/
theorem ofValue?_eq (value : Value) :
    Trade.ofValue? value =
      if textMember? value "e" = some "aggTrade" then
        (textMember? value "s").bind fun symbol =>
          ((textMember? value "p").bind Decimal.readFloat?).map fun price =>
            { symbol
              tick := Tick.trade price
                (((textMember? value "q").bind Decimal.readFloat?).getD 0) }
      else none := by
  unfold Trade.ofValue?
  by_cases h : textMember? value "e" = some "aggTrade"
  · rw [guard, if_pos h, if_pos h]
    cases textMember? value "s" with
    | none => rfl
    | some symbol => cases (textMember? value "p").bind Decimal.readFloat? <;> rfl
  · rw [guard, if_neg h, if_neg h]
    rfl

/-- A document is a trade of a symbol exactly when the last members of the event, the symbol and the
price say so. -/
theorem ofValue?_sorted_iff (symbol : String) (price : Float) :
    (∃ trade, Trade.ofValue? (Value.sorted document) = some trade ∧
        sameSymbol trade.symbol symbol = true ∧ trade.tick.price = price) ↔
      ∃ members name text, document = .object members ∧
        lastMember? members "e" = some (.text "aggTrade") ∧
        lastMember? members "s" = some (.text name) ∧ sameSymbol name symbol = true ∧
        lastMember? members "p" = some (.text text) ∧ Decimal.readFloat? text = some price := by
  rw [ofValue?_eq]
  constructor
  · rintro ⟨trade, htrade, hsymbol, rfl⟩
    obtain ⟨hkind, htrade⟩ := Option.ite_none_right_eq_some.1 htrade
    obtain ⟨name, hname, htrade⟩ := Option.bind_eq_some_iff.1 htrade
    obtain ⟨price, hprice, rfl⟩ := Option.map_eq_some_iff.1 htrade
    obtain ⟨text, htext, hread⟩ := Option.bind_eq_some_iff.1 hprice
    obtain ⟨members, hdocument, hlast⟩ := textMember?_sorted.1 hkind
    obtain ⟨_, rfl, hlastName⟩ := textMember?_sorted.1 hname
    cases hdocument
    obtain ⟨_, heq, hlastText⟩ := textMember?_sorted.1 htext
    cases heq
    exact ⟨members, name, text, rfl, hlast, hlastName, hsymbol, hlastText, hread⟩
  · rintro ⟨members, name, text, rfl, hkind, hname, hsymbol, htext, hread⟩
    rw [if_pos (textMember?_sorted.2 ⟨members, rfl, hkind⟩),
      textMember?_sorted.2 ⟨members, rfl, hname⟩, textMember?_sorted.2 ⟨members, rfl, htext⟩,
      Option.bind_some, Option.bind_some, hread]
    exact ⟨_, rfl, hsymbol, rfl⟩

/-- A frame reports a trade of a symbol exactly when it is read as one. -/
theorem reportsTrade_iff :
    ReportsTrade symbol frame price ↔
      ∃ trade, Trade.ofFrame? frame = some trade ∧ sameSymbol trade.symbol symbol = true ∧
        trade.tick.price = price := by
  have hframe : ∀ trade, Trade.ofFrame? frame = some trade ↔
      ∃ document, Wire.IsJson frame document ∧
        Trade.ofValue? (Value.sorted document) = some trade := by
    intro trade
    unfold Trade.ofFrame?
    cases hread : readValue frame with
    | ok value =>
      obtain ⟨document, hjson, rfl⟩ := Wire.readValue_iff.1 hread
      refine ⟨fun h => ⟨document, hjson, h⟩, ?_⟩
      rintro ⟨other, hother, h⟩
      rwa [hjson.unique hother]
    | error located =>
      refine iff_of_false nofun ?_
      rintro ⟨document, hjson, -⟩
      rw [Wire.readValue_iff.2 ⟨document, hjson, rfl⟩] at hread
      cases hread
  constructor
  · rintro ⟨hjson, hkind, hname, hsymbol, htext, hprice⟩
    obtain ⟨trade, htrade, hsame⟩ := (ofValue?_sorted_iff symbol price).2
      ⟨_, _, _, rfl, hkind, hname, hsymbol, htext, hprice⟩
    exact ⟨trade, (hframe trade).2 ⟨_, hjson, htrade⟩, hsame⟩
  · rintro ⟨trade, htrade, hsame⟩
    obtain ⟨document, hjson, htrade⟩ := (hframe trade).1 htrade
    obtain ⟨members, name, text, rfl, hkind, hname, hsymbol, htext, hprice⟩ :=
      (ofValue?_sorted_iff symbol price).1 ⟨trade, htrade, hsame⟩
    exact .object hjson hkind hname hsymbol htext hprice

/-- The reader gives exactly the price that a frame reports. -/
theorem reportedPrice?_eq_some :
    reportedPrice? symbol frame = some price ↔ Reports symbol frame price := by
  have hvalid : ∀ price : Float, isValidPrice price = true ↔ price.isFinite = true ∧ 0 ≤ price := by
    intro price
    rw [isValidPrice, Bool.and_eq_true, decide_eq_true_iff]
  constructor
  · intro h
    obtain ⟨trade, htrade, h⟩ := Option.bind_eq_some_iff.1 h
    obtain ⟨htaken, hprice⟩ := Option.ite_none_right_eq_some.1 h
    obtain ⟨hsymbol, hprices⟩ := Bool.and_eq_true_iff.1 htaken
    cases hprice
    obtain ⟨hfinite, hnonneg⟩ := (hvalid _).1 hprices
    exact ⟨reportsTrade_iff.2 ⟨trade, htrade, hsymbol, rfl⟩, hfinite, hnonneg⟩
  · rintro ⟨hreports, hfinite, hnonneg⟩
    obtain ⟨trade, htrade, hsymbol, rfl⟩ := reportsTrade_iff.1 hreports
    rw [reportedPrice?, htrade, Option.bind_some, hsymbol, (hvalid _).2 ⟨hfinite, hnonneg⟩]
    rfl

end Market

end TriggerDesk
