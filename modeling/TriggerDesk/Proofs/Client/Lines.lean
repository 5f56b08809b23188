import TriggerDesk.Proofs.Client.Calls
import TriggerDesk.Proofs.Text.Words
import TriggerDesk.Proofs.Wire.Decoding

/-!
# What comes of a console line

The grammar of the console is `Says`: which words make which request. A line that says one asks a
ledger for one command (`Ledger.Wants`), and is refused for one reason otherwise
(`Ledger.Refuses`): it says nothing, its price is none, or the ledger knows no order to cancel or
modify, in this sequence. The line is carried out exactly when the ledger takes that command
(`Ledger.line_obeys`).
-/

namespace TriggerDesk.Client

open TriggerDesk.Order Text

variable {line word fresh oid : String} {kind : Command.Kind} {request : Request} {price : Float}
  {refusal : Refusal}

/-! ## The grammar -/

/-- The words of a line make a request. -/
inductive Says (line : String) : Request → Prop where
  | place {kind : Command.Kind} {symbol broker price : String} : kind.places = true →
      IsWords line [kind.name, symbol, broker, price] →
      Says line (.place kind symbol broker price none)
  | placeAs {kind : Command.Kind} {symbol broker price oid : String} : kind.places = true →
      IsWords line [kind.name, symbol, broker, price, oid] →
      Says line (.place kind symbol broker price (some oid))
  | cancel {oid : String} : IsWords line ["cancel", oid] → Says line (.cancel oid)
  | modify {oid price : String} : IsWords line ["modify", oid, price] →
      Says line (.modify oid price)

/-- A word is a price: a number, and finite. -/
structure IsPrice (word : String) (price : Float) : Prop where
  reads : Decimal.readFloat? word = some price
  finite : price.isFinite = true

/-- The word of a request that has to be a price. -/
def Request.priceWord? : Request → Option String
  | .place _ _ _ price _ => some price
  | .cancel _ => none
  | .modify _ price => some price

/-- A word is a kind of order exactly if it is the name of a kind that places one. -/
theorem placingKind?_eq_some :
    placingKind? word = some kind ↔ kind.places = true ∧ word = kind.name := by
  rw [placingKind?, Option.filter_eq_some_iff, Wire.ofName?_eq_some, and_comm]

/-- What is read from a line is what its words say. -/
theorem Request.ofLine?_eq_some : Request.ofLine? line = some request ↔ Says line request := by
  constructor
  · intro h
    rw [ofLine?] at h
    generalize hwords : Text.words line = words at h
    have hline := words_eq_iff.1 hwords
    unfold ofWords? at h
    split at h
    · obtain ⟨kind, hkind, rfl⟩ := Option.map_eq_some_iff.1 h
      obtain ⟨hplaces, rfl⟩ := placingKind?_eq_some.1 hkind
      exact .place hplaces hline
    · obtain ⟨kind, hkind, rfl⟩ := Option.map_eq_some_iff.1 h
      obtain ⟨hplaces, rfl⟩ := placingKind?_eq_some.1 hkind
      exact .placeAs hplaces hline
    · cases h
      exact .cancel hline
    · cases h
      exact .modify hline
    · cases h
  · intro h
    unfold ofLine?
    cases h with
    | place hplaces hline =>
      rw [words_eq_iff.2 hline, ofWords?, placingKind?_eq_some.2 ⟨hplaces, rfl⟩]
      rfl
    | placeAs hplaces hline =>
      rw [words_eq_iff.2 hline, ofWords?, placingKind?_eq_some.2 ⟨hplaces, rfl⟩]
      rfl
    | cancel hline =>
      rw [words_eq_iff.2 hline]
      rfl
    | modify hline =>
      rw [words_eq_iff.2 hline]
      rfl

/-- Nothing is read from a line whose words say nothing. -/
theorem Request.ofLine?_eq_none :
    Request.ofLine? line = none ↔ ∀ request, ¬Says line request := by
  rw [Option.eq_none_iff_forall_ne_some]
  exact forall_congr' fun request => not_congr ofLine?_eq_some

/-- A request needs a fresh id exactly if it is of the shape without one. -/
theorem Says.needsOid (h : Says line request) :
    request.needsOid = true ↔
      ∃ kind symbol broker price, kind.places = true ∧
        IsWords line [Command.Kind.name kind, symbol, broker, price] := by
  have hlength : ∀ {words others : List String}, IsWords line words → IsWords line others →
      words.length = others.length := fun h hother => congrArg List.length (h.eq hother)
  cases h with
  | place hplaces hline => exact iff_of_true rfl ⟨_, _, _, _, hplaces, hline⟩
  | placeAs hplaces hline =>
    refine iff_of_false Bool.false_ne_true ?_
    rintro ⟨kind, symbol, broker, price, -, hother⟩
    cases hlength hline hother
  | cancel hline =>
    refine iff_of_false Bool.false_ne_true ?_
    rintro ⟨kind, symbol, broker, price, -, hother⟩
    cases hlength hline hother
  | modify hline =>
    refine iff_of_false Bool.false_ne_true ?_
    rintro ⟨kind, symbol, broker, price, -, hother⟩
    cases hlength hline hother

/-- A price is read from a word exactly if the word is that price. -/
theorem readPrice_eq_ok : readPrice word = .ok price ↔ IsPrice word price := by
  unfold readPrice
  have hfilter : (Decimal.readFloat? word).filter (·.isFinite) = some price ↔
      IsPrice word price := by
    rw [Option.filter_eq_some_iff]
    exact ⟨fun h => ⟨h.1, h.2⟩, fun h => ⟨h.reads, h.finite⟩⟩
  rw [← hfilter]
  cases (Decimal.readFloat? word).filter (·.isFinite) with
  | none => exact iff_of_false nofun nofun
  | some found => rw [Except.ok.injEq, Option.some.injEq]

/-- A word is refused as a price exactly if it is none. -/
theorem readPrice_eq_error :
    readPrice word = .error refusal ↔
      refusal = .badPrice word ∧ ∀ price, ¬IsPrice word price := by
  simp only [← readPrice_eq_ok]
  unfold readPrice
  cases (Decimal.readFloat? word).filter (·.isFinite) with
  | none => exact ⟨fun h => by cases h; exact ⟨rfl, nofun⟩, fun h => by rw [h.1]⟩
  | some found => exact iff_of_false nofun fun h => h.2 found rfl

namespace Ledger

variable {ledger : Ledger} {command : Command}

/-! ## What a line asks for, and why it is refused -/

/-- A line asks a ledger for a command, and is about an order id. A line without an id has the
fresh one. -/
inductive Wants (ledger : Ledger) (fresh line : String) : String → Command → Prop where
  | place {kind : Command.Kind} {symbol broker word : String} {price : Float} :
      Says line (.place kind symbol broker word none) → IsPrice word price →
      Wants ledger fresh line fresh { kind, oid := fresh, symbol, brokers := [broker], price }
  | placeAs {kind : Command.Kind} {symbol broker word oid : String} {price : Float} :
      Says line (.place kind symbol broker word (some oid)) → IsPrice word price →
      Wants ledger fresh line oid { kind, oid, symbol, brokers := [broker], price }
  | cancel {oid : String} {order : Command} : Says line (.cancel oid) → ledger.Knows oid order →
      Wants ledger fresh line oid { order with kind := .cancel }
  | modify {oid word : String} {price : Float} {order : Command} :
      Says line (.modify oid word) → IsPrice word price → ledger.Knows oid order →
      Wants ledger fresh line oid { order with kind := .modify, price }

/-- A ledger accepts a command that is submitted. -/
def Accepts (ledger : Ledger) (command : Command) : Prop :=
  (ledger.trySubmit command).result = .ok ()

/-- A ledger refuses a line, and why. -/
inductive Refuses (ledger : Ledger) (fresh line : String) : Refusal → Prop where
  /-- The line says nothing. -/
  | badLine {text : String} : (∀ request, ¬Says line request) → IsTrimmed line text →
      Refuses ledger fresh line (.badLine text)
  /-- The line has a price that is none, whether or not its order is known. -/
  | badPrice {request : Request} {word : String} : Says line request →
      request.priceWord? = some word → (∀ price, ¬IsPrice word price) →
      Refuses ledger fresh line (.badPrice word)
  | unknownCancel {oid : String} : Says line (.cancel oid) → (∀ order, ¬ledger.Knows oid order) →
      Refuses ledger fresh line (.unknownOid oid)
  | unknownModify {oid word : String} {price : Float} : Says line (.modify oid word) →
      IsPrice word price → (∀ order, ¬ledger.Knows oid order) →
      Refuses ledger fresh line (.unknownOid oid)
  /-- The command that the line asks for is refused. -/
  | submit {oid : String} {command : Command} {refusal : Refusal} :
      ledger.Wants fresh line oid command → (ledger.trySubmit command).result = .error refusal →
      Refuses ledger fresh line refusal

/-- An order is unknown to a ledger if it knows none under the id. -/
theorem known?_eq_none : ledger.known? oid = none ↔ ∀ order, ¬ledger.Knows oid order := by
  rw [Option.eq_none_iff_forall_ne_some]
  exact forall_congr' fun order => not_congr known?_eq_some

/-- A line is tried as the request that it says. -/
theorem tryLine_of_request (h : Says line request) (ledger : Ledger) (fresh : String) :
    ledger.tryLine fresh line = ledger.tryApply fresh request := by
  rw [tryLine, Request.ofLine?_eq_some.2 h]

/-- What a line asks for is submitted. -/
theorem Wants.tryLine_eq (h : ledger.Wants fresh line oid command) :
    ledger.tryLine fresh line = (ledger.trySubmit command).map fun _ => oid := by
  cases h with
  | place hsays hprice =>
    rw [tryLine_of_request hsays, tryApply, readPrice_eq_ok.2 hprice]
    rfl
  | placeAs hsays hprice =>
    rw [tryLine_of_request hsays, tryApply, readPrice_eq_ok.2 hprice]
    rfl
  | cancel hsays hknows =>
    rw [tryLine_of_request hsays, tryApply, tryCancel, known?_eq_some.2 hknows]
  | modify hsays hprice hknows =>
    rw [tryLine_of_request hsays, tryApply, readPrice_eq_ok.2 hprice]
    show (ledger.tryModify _ _).map _ = _
    rw [tryModify, known?_eq_some.2 hknows]

/-- A line that a ledger refuses is refused for that reason. -/
theorem Refuses.result_eq (h : ledger.Refuses fresh line refusal) :
    (ledger.tryLine fresh line).result = .error refusal := by
  cases h with
  | badLine hnothing htrimmed =>
    rw [tryLine, Request.ofLine?_eq_none.2 hnothing, ← trim_eq_iff.2 htrimmed]
    rfl
  | @badPrice request word hsays hword hprice =>
    have hread : readPrice word = .error (.badPrice word) := readPrice_eq_error.2 ⟨rfl, hprice⟩
    rw [tryLine_of_request hsays]
    cases request with
    | place kind symbol broker price oid =>
      cases hword
      rw [tryApply, hread]
      rfl
    | cancel oid => cases hword
    | modify oid price =>
      cases hword
      rw [tryApply, hread]
      rfl
  | unknownCancel hsays hunknown =>
    rw [tryLine_of_request hsays, tryApply, tryCancel, known?_eq_none.2 hunknown]
    rfl
  | unknownModify hsays hprice hunknown =>
    rw [tryLine_of_request hsays, tryApply, readPrice_eq_ok.2 hprice]
    show ((ledger.tryModify _ _).map _).result = _
    rw [tryModify, known?_eq_none.2 hunknown]
    rfl
  | submit hwants hrefused =>
    rw [hwants.tryLine_eq, Outcome.map, hrefused]
    rfl

/-- A line asks for a command, or is refused before anything is submitted. -/
theorem wants_or_refuses (ledger : Ledger) (fresh line : String) :
    (∃ oid command, ledger.Wants fresh line oid command) ∨
      ∃ refusal, ledger.Refuses fresh line refusal ∧
        (ledger.tryLine fresh line).ledger = ledger := by
  cases hrequest : Request.ofLine? line with
  | none =>
    refine .inr ⟨_, .badLine (Request.ofLine?_eq_none.1 hrequest) (isTrimmed_trim line), ?_⟩
    rw [tryLine, hrequest]
    rfl
  | some request =>
    have hsays := Request.ofLine?_eq_some.1 hrequest
    rw [tryLine_of_request hsays]
    cases request with
    | place kind symbol broker word oid =>
      cases hread : readPrice word with
      | error refusal =>
        obtain ⟨rfl, hprice⟩ := readPrice_eq_error.1 hread
        refine .inr ⟨_, .badPrice hsays rfl hprice, ?_⟩
        rw [tryApply, hread]
        rfl
      | ok price =>
        have hprice := readPrice_eq_ok.1 hread
        cases oid with
        | none => exact .inl ⟨_, _, .place hsays hprice⟩
        | some oid => exact .inl ⟨_, _, .placeAs hsays hprice⟩
    | cancel oid =>
      cases hknown : ledger.known? oid with
      | none =>
        refine .inr ⟨_, .unknownCancel hsays (known?_eq_none.1 hknown), ?_⟩
        rw [tryApply, tryCancel, hknown]
        rfl
      | some order => exact .inl ⟨_, _, .cancel hsays (known?_eq_some.1 hknown)⟩
    | modify oid word =>
      -- A bad price is found before an unknown order.
      cases hread : readPrice word with
      | error refusal =>
        obtain ⟨rfl, hprice⟩ := readPrice_eq_error.1 hread
        refine .inr ⟨_, .badPrice hsays rfl hprice, ?_⟩
        rw [tryApply, hread]
        rfl
      | ok price =>
        have hprice := readPrice_eq_ok.1 hread
        cases hknown : ledger.known? oid with
        | none =>
          refine .inr ⟨_, .unknownModify hsays hprice (known?_eq_none.1 hknown), ?_⟩
          rw [tryApply, hread]
          show (ledger.tryModify oid price).ledger = ledger
          rw [tryModify, hknown]
          rfl
        | some order => exact .inl ⟨_, _, .modify hsays hprice (known?_eq_some.1 hknown)⟩

/-- What comes of a line: the command that it asks for is sent, or it is refused and the ledger is
what it was. -/
theorem tryLine_cases (ledger : Ledger) (fresh line : String) :
    (∃ oid command, ledger.Wants fresh line oid command ∧ ledger.Accepts command ∧
        ledger.tryLine fresh line = ⟨.ok oid, ledger.sending command⟩) ∨
      ∃ refusal, ledger.Refuses fresh line refusal ∧
        ledger.tryLine fresh line = ⟨.error refusal, ledger⟩ := by
  rcases wants_or_refuses ledger fresh line with ⟨oid, command, hwants⟩ | ⟨refusal, hrefuses, hkept⟩
  · rw [hwants.tryLine_eq]
    rcases trySubmit_cases ledger command with ⟨-, hsent⟩ | ⟨-, refusal, hrefused⟩
    · refine .inl ⟨oid, command, hwants, ?_, ?_⟩
      · rw [Accepts, hsent]
      · rw [hsent]
        rfl
    · refine .inr ⟨refusal, .submit hwants ?_, ?_⟩
      · rw [hrefused]
      · rw [hrefused]
        rfl
  · exact .inr ⟨refusal, hrefuses, congrArg₂ Outcome.mk hrefuses.result_eq hkept⟩

/-- A command that is accepted is sent. -/
theorem Accepts.trySubmit_eq (h : ledger.Accepts command) :
    ledger.trySubmit command = ⟨.ok (), ledger.sending command⟩ := by
  rcases trySubmit_cases ledger command with ⟨-, hsent⟩ | ⟨-, refusal, hrefused⟩
  · exact hsent
  · rw [Accepts, hrefused] at h
    cases h

/-- A line whose command the ledger accepts gives the id and sends the command. -/
theorem Wants.tryLine_of_accepts (h : ledger.Wants fresh line oid command)
    (haccepts : ledger.Accepts command) :
    ledger.tryLine fresh line = ⟨.ok oid, ledger.sending command⟩ := by
  rw [h.tryLine_eq, haccepts.trySubmit_eq]
  rfl

/-! ## Lines -/

/-- A console line does what its words say, with a ledger and an id that is fresh. -/
structure Obeys (ledger : Ledger) (fresh line : String) : Prop where
  /-- The words of a line are those that it is joined from, by whatever blanks. -/
  joined : ∀ front pieces, Blank front → Joins pieces →
    line.toList = front ++ pieces.flatMap (fun piece => piece.1 ++ piece.2) →
    IsWords line (pieces.map fun piece => String.ofList piece.1)
  queues : ∀ command,
    (ledger.tryLine fresh line).ledger.queue.items = ledger.queue.items ++ [command] ↔
      ∃ oid, ledger.Wants fresh line oid command ∧ ledger.Accepts command
  gives : ∀ oid, (ledger.tryLine fresh line).result = .ok oid ↔
    ∃ command, ledger.Wants fresh line oid command ∧ ledger.Accepts command
  sends : ∀ oid command, ledger.Wants fresh line oid command → ledger.Accepts command →
    (ledger.tryLine fresh line).ledger = ledger.sending command
  refuses : ∀ refusal, (ledger.tryLine fresh line).result = .error refusal ↔
    ledger.Refuses fresh line refusal
  keeps : ∀ refusal, (ledger.tryLine fresh line).result = .error refusal →
    (ledger.tryLine fresh line).ledger = ledger
  /-- An order without an id asks for a fresh one, whatever its price is. -/
  asks : ∀ {m : Type → Type} [Monad m] (ask : m String) (kind : Command.Kind)
    (symbol broker price : String), kind.places = true →
    IsWords line [kind.name, symbol, broker, price] →
    ledger.tryLineAsking ask line = do return ledger.tryLine (← ask) line
  /-- Every other line asks for no id, so that none makes a difference to it. -/
  spares : ∀ {m : Type → Type} [Monad m] (ask : m String),
    (¬∃ kind symbol broker price, kind.places = true ∧
      IsWords line [Command.Kind.name kind, symbol, broker, price]) →
    ledger.tryLineAsking ask line = pure (ledger.tryLine fresh line)

/-- Words that are joined by blanks are the words of the line. -/
theorem isWords_of_joins {front : List Char} {pieces : List (List Char × List Char)}
    (hfront : Blank front) (hpieces : Joins pieces)
    (hline : line.toList = front ++ pieces.flatMap fun piece => piece.1 ++ piece.2) :
    IsWords line (pieces.map fun piece => String.ofList piece.1) := by
  have hsame : String.toList ∘ (fun piece : List Char × List Char => String.ofList piece.1) =
      (·.1) := funext fun piece => String.toList_ofList
  rw [IsWords, hline, List.map_map, hsame]
  exact hpieces.spaced hfront

/-- A command that is sent comes to the end of the queue. -/
theorem queue_sending (ledger : Ledger) (command : Command) :
    (ledger.sending command).queue.items = ledger.queue.items ++ [command] := rfl

/-- A request that needs no fresh id is carried out alike with any. -/
theorem tryApply_of_not_needsOid (h : request.needsOid = false) (ledger : Ledger)
    (fresh other : String) : ledger.tryApply fresh request = ledger.tryApply other request := by
  cases request with
  | place kind symbol broker word oid =>
    cases oid with
    | none => cases h
    | some oid => rfl
  | cancel oid => rfl
  | modify oid word => rfl

/-- Every line does what its words say. -/
theorem line_obeys (ledger : Ledger) (fresh line : String) : ledger.Obeys fresh line := by
  have hcases := tryLine_cases ledger fresh line
  constructor
  case joined => exact fun front pieces => isWords_of_joins
  case queues =>
    intro command
    constructor
    · intro h
      rcases hcases with ⟨oid, sent, hwants, haccepts, heq⟩ | ⟨refusal, -, heq⟩
      · rw [heq, queue_sending, List.append_cancel_left_eq, List.singleton_inj] at h
        exact ⟨oid, h ▸ hwants, h ▸ haccepts⟩
      · rw [heq] at h
        exact absurd (List.self_eq_append_right.1 h) (List.cons_ne_nil command [])
    · rintro ⟨oid, hwants, haccepts⟩
      rw [hwants.tryLine_of_accepts haccepts, queue_sending]
  case gives =>
    intro oid
    constructor
    · intro h
      rcases hcases with ⟨given, command, hwants, haccepts, heq⟩ | ⟨refusal, -, heq⟩
      · rw [heq] at h
        cases h
        exact ⟨command, hwants, haccepts⟩
      · rw [heq] at h
        cases h
    · rintro ⟨command, hwants, haccepts⟩
      rw [hwants.tryLine_of_accepts haccepts]
  case sends =>
    intro oid command hwants haccepts
    rw [hwants.tryLine_of_accepts haccepts]
  case refuses =>
    refine fun refusal => ⟨fun h => ?_, Refuses.result_eq⟩
    rcases hcases with ⟨oid, command, -, -, heq⟩ | ⟨given, hrefuses, heq⟩
    · rw [heq] at h
      cases h
    · rw [heq] at h
      cases h
      exact hrefuses
  case keeps =>
    intro refusal h
    rcases hcases with ⟨oid, command, -, -, heq⟩ | ⟨given, -, heq⟩
    · rw [heq] at h
      cases h
    · rw [heq]
  case asks =>
    intro m _ ask kind symbol broker price hplaces hline
    have hsays := Says.place hplaces hline
    simp only [tryLine_of_request hsays]
    rw [tryLineAsking, Request.ofLine?_eq_some.2 hsays]
    rfl
  case spares =>
    intro m _ ask hother
    unfold tryLineAsking tryLine
    cases hrequest : Request.ofLine? line with
    | none => rfl
    | some request =>
      -- Nobody is asked for an id that the request has no use for.
      have hneeds : request.needsOid = false := by
        rw [← Bool.not_eq_true, (Request.ofLine?_eq_some.1 hrequest).needsOid]
        exact hother
      simp only [hneeds, Bool.false_eq_true, if_false]
      rw [tryApply_of_not_needsOid hneeds ledger "" fresh]

end Ledger

end TriggerDesk.Client
