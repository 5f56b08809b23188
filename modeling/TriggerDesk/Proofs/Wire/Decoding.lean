import Mathlib.Data.List.Forall2
import TriggerDesk.Proofs.Json.Parsing
import TriggerDesk.Proofs.Json.Sorting
import TriggerDesk.Wire.CommandLine

/-!
# The lines that are commands

A line is a command if it is a JSON document that describes one (`Describes`): an object with the
five parts, of which the last of each name counts, or an array of them. Everything else is rejected,
with the order id that the line gives and a reason that starts with what is wrong: the line is not
JSON, or its `msg` is no kind of command, or it is no command in another way (`decodes`).

The reader goes through sorted members, part by part, and collects what it finds in a draft.
`Draft.readMembers_iff` and `Draft.readItems_iff` say what it collects.
-/

namespace TriggerDesk.Wire

open Json TriggerDesk.Order

variable {draft next : Draft} {command : Command} {part : Part} {value : Value}

/-! ## What a line says -/

/-- A line is the text of a document, in which 127 brackets may be open at once. -/
def IsJson (line : String) (document : Value) : Prop :=
  DerivesWhole .strict (some 127) line.toList document

/-- A kind of command is given by its name, or by an object that has no other name, and last a
`null` for it. -/
inductive IsKind : Value → Command.Kind → Prop where
  | name (kind : Command.Kind) : IsKind (.text kind.name) kind
  | member {members : List (String × Value)} {kind : Command.Kind} :
      (∀ name ∈ names members, name = kind.name) → lastMember? members kind.name = some .null →
      IsKind (.object members) kind

/-- A document describes a command: it is an object that has the five parts, of which the last of
each name counts, or an array of exactly these parts. -/
inductive Describes : Value → Command → Prop where
  | object {members : List (String × Value)} {msg : Value} {n : Number} {command : Command} :
      lastMember? members "msg" = some msg → IsKind msg command.kind →
      lastMember? members "oid" = some (.text command.oid) →
      lastMember? members "symbol" = some (.text command.symbol) →
      lastMember? members "brokers" = some (.array (command.brokers.map .text)) →
      lastMember? members "price" = some (.number n) → n.toFloat = command.price →
      Describes (.object members) command
  | array {msg : Value} {n : Number} {command : Command} :
      IsKind msg command.kind → n.toFloat = command.price →
      Describes (.array [msg, .text command.oid, .text command.symbol,
        .array (command.brokers.map .text), .number n]) command

/-- A document is an object whose `msg` is no kind of command. -/
def IsUnsupported (document : Value) : Prop :=
  ∃ members msg, document = .object members ∧ lastMember? members "msg" = some msg ∧
    ∀ kind, ¬IsKind msg kind

/-- The order id that a line gives: the text that its object has last for it. -/
def GivesOid (line oid : String) : Prop :=
  ∃ members, IsJson line (.object members) ∧ lastMember? members "oid" = some (.text oid)

/-! ## Parts of a command -/

/-- A value is read as a part of a command. -/
def Part.Gives (part : Part) (value : Value) (command : Command) : Prop :=
  match part with
  | .msg => readKind value = .ok command.kind
  | .oid => readText value = .ok command.oid
  | .symbol => readText value = .ok command.symbol
  | .brokers => readTexts value = .ok command.brokers
  | .price => readNumber value = .ok command.price

/-- A draft has a part of a command. -/
def Draft.Has (draft : Draft) (part : Part) (command : Command) : Prop :=
  match part with
  | .msg => draft.kind = some command.kind
  | .oid => draft.oid = some command.oid
  | .symbol => draft.symbol = some command.symbol
  | .brokers => draft.brokers = some command.brokers
  | .price => draft.price = some command.price

/-- An empty draft has no part. -/
theorem not_has_empty (part : Part) (command : Command) : ¬Draft.Has {} part command := by
  cases part <;> exact nofun

/-- A draft is finished into a command if it has every part of it. -/
theorem Draft.finish_iff : draft.finish = .ok command ↔ ∀ part, draft.Has part command := by
  obtain ⟨kind, oid, symbol, brokers, price⟩ := draft
  constructor
  · intro h
    obtain ⟨_, hkind, h⟩ := bind_eq_ok h
    obtain ⟨_, hoid, h⟩ := bind_eq_ok h
    obtain ⟨_, hsymbol, h⟩ := bind_eq_ok h
    obtain ⟨_, hbrokers, h⟩ := bind_eq_ok h
    obtain ⟨_, hprice, h⟩ := bind_eq_ok h
    cases h
    have hneed : ∀ {α : Type} {part : Part} {found : Option α} {a : α},
        need part found = .ok a → found = some a := by
      intro α part found a h
      cases found with
      | none => cases h
      | some => cases h; rfl
    intro part
    cases part with
    | msg => exact hneed hkind
    | oid => exact hneed hoid
    | symbol => exact hneed hsymbol
    | brokers => exact hneed hbrokers
    | price => exact hneed hprice
  · intro h
    have hkind : kind = _ := h .msg
    have hoid : oid = _ := h .oid
    have hsymbol : symbol = _ := h .symbol
    have hbrokers : brokers = _ := h .brokers
    have hprice : price = _ := h .price
    subst hkind hoid hsymbol hbrokers hprice
    rfl

/-- A part that is read is what the draft has then, and it has the others as before. -/
theorem Draft.has_of_read (h : draft.read part value = .ok next) (command : Command) :
    (next.Has part command ↔ part.Gives value command) ∧
      ∀ other, other ≠ part → (next.Has other command ↔ draft.Has other command) := by
  have hsome : ∀ {α : Type} {read : Except Mismatch α} {found wanted : α}, read = .ok found →
      (some found = some wanted ↔ read = .ok wanted) := by
    intro α read found wanted hread
    rw [hread, Option.some.injEq, Except.ok.injEq]
  cases part with
  | msg | oid | symbol | brokers | price =>
    obtain ⟨found, hfound, rfl⟩ := map_eq_ok h
    refine ⟨hsome hfound, fun other hother => ?_⟩
    cases other with
    | msg | oid | symbol | brokers | price => first | exact Iff.rfl | exact absurd rfl hother

/-- A value that is refused for a part gives that part of no command. -/
theorem Draft.not_gives_of_read {mismatch : Mismatch} (h : draft.read part value = .error mismatch)
    (command : Command) : ¬part.Gives value command := by
  intro hgives
  cases part with
  | msg | oid | symbol | brokers | price =>
    unfold Draft.read at h
    rw [show _ = Except.ok _ from hgives] at h
    cases h

/-! ## Members and items -/

/-- A part is found by its name and by no other. -/
theorem Part.ofName?_eq_some {name : String} :
    Part.ofName? name = some part ↔ name = part.name := by
  constructor
  · intro h
    have hname := List.find?_some h
    exact (of_decide_eq_true hname).symm
  · rintro rfl
    cases part <;> rfl

/-- No two parts have the same name. -/
theorem Part.name_inj {first second : Part} (h : first.name = second.name) : first = second :=
  Option.some.inj ((Part.ofName?_eq_some.2 rfl).symm.trans (Part.ofName?_eq_some.2 h))

/-- What a draft comes to that reads a value for a part, if it is given one. -/
def Draft.Yields (draft : Draft) (part : Part) (found : Option Value) (command : Command) : Prop :=
  match found with
  | some value => part.Gives value command
  | none => draft.Has part command

/-- Among members of which no two have one name, each part is what its member gives. -/
theorem Draft.readMembers_iff {members : List (String × Value)} (hnodup : (names members).Nodup) :
    (∃ last, draft.readMembers members = .ok last ∧ ∀ part, last.Has part command) ↔
      ∀ part, draft.Yields part (members.lookup part.name) command := by
  induction members generalizing draft with
  | nil => simp [readMembers, Yields]
  | cons member rest ih =>
    obtain ⟨name, value⟩ := member
    obtain ⟨hnew, hrest⟩ := List.nodup_cons.1 (show (name :: names rest).Nodup from hnodup)
    rw [readMembers]
    cases hpart : Part.ofName? name with
    | none =>
      rw [ih hrest]
      refine forall_congr' fun part => ?_
      rw [lookup_cons_eq, if_neg]
      intro hname
      rw [Part.ofName?_eq_some.2 hname.symm] at hpart
      cases hpart
    | some part =>
      obtain rfl := Part.ofName?_eq_some.1 hpart
      have hnone : rest.lookup part.name = none := by
        rw [← Option.not_isSome_iff_eq_none, isSome_lookup]
        exact hnew
      dsimp only
      cases hread : draft.read part value with
      | error mismatch =>
        refine ⟨fun ⟨_, h, _⟩ => (by cases h), fun h => ?_⟩
        have hgives := h part
        rw [lookup_cons_eq, if_pos rfl] at hgives
        exact absurd hgives (not_gives_of_read hread command)
      | ok next =>
        obtain ⟨hself, hothers⟩ := has_of_read hread command
        refine Iff.trans (@ih next hrest) (forall_congr' fun other => ?_)
        by_cases hother : other = part
        · subst hother
          rw [lookup_cons_eq, if_pos rfl, hnone]
          exact hself
        · rw [lookup_cons_eq, if_neg fun hname => hother (Part.name_inj hname)]
          cases rest.lookup other.name with
          | none => exact hothers other hother
          | some found => exact Iff.rfl

/-- The items of an array give the parts one by one, and there are as many of them. -/
theorem Draft.readItems_iff {parts : List Part} (hnodup : parts.Nodup) (count : Nat)
    {items : List Value} :
    (∃ last, draft.readItems count parts items = .ok last ∧ ∀ part, last.Has part command) ↔
      List.Forall₂ (fun part value => part.Gives value command) parts items ∧
        ∀ part ∉ parts, draft.Has part command := by
  induction parts generalizing draft items with
  | nil =>
    cases items with
    | nil => simp [readItems]
    | cons value rest => exact ⟨fun ⟨_, h, _⟩ => (by cases h), fun ⟨h, _⟩ => (by cases h)⟩
  | cons part parts ih =>
    obtain ⟨hnew, hparts⟩ := List.nodup_cons.1 hnodup
    cases items with
    | nil => exact ⟨fun ⟨_, h, _⟩ => (by cases h), fun ⟨h, _⟩ => (by cases h)⟩
    | cons value rest =>
      rw [readItems, List.forall₂_cons]
      cases hread : draft.read part value with
      | error mismatch =>
        exact ⟨fun ⟨_, h, _⟩ => (by cases h),
          fun h => absurd h.1.1 (not_gives_of_read hread command)⟩
      | ok next =>
        obtain ⟨hself, hothers⟩ := has_of_read hread command
        refine Iff.trans (@ih next hparts rest) ?_
        constructor
        · rintro ⟨hrest, hhas⟩
          refine ⟨⟨hself.1 (hhas part hnew), hrest⟩, fun other hother => ?_⟩
          have hne : other ≠ part := fun heq => hother (heq ▸ List.mem_cons_self)
          exact (hothers other hne).1 (hhas other fun hmem => hother (List.mem_cons_of_mem _ hmem))
        · rintro ⟨⟨hgives, hrest⟩, hhas⟩
          refine ⟨hrest, fun other hother => ?_⟩
          by_cases hne : other = part
          · exact hne ▸ hself.2 hgives
          · exact (hothers other hne).2 (hhas other (List.not_mem_cons_of_ne_of_not_mem hne hother))

/-! ## Values as they stand in the text -/

/-- Sorting makes a `null` of nothing else. -/
theorem sorted_eq_null : Value.sorted value = .null ↔ value = .null := by
  cases value <;> simp [Value.sorted]

/-- A text is read from a sorted value exactly if the value is that text. -/
theorem readText_sorted {t : String} : readText (Value.sorted value) = .ok t ↔ value = .text t := by
  cases value <;> simp [Value.sorted, readText]

/-- A number is read from a sorted value exactly if the value is that number. -/
theorem readNumber_sorted {x : Float} :
    readNumber (Value.sorted value) = .ok x ↔ ∃ n, value = .number n ∧ n.toFloat = x := by
  cases value <;> simp [Value.sorted, readNumber]

/-- Items are sorted one by one. -/
theorem sortedItems_eq_map (items : List Value) :
    Value.sortedItems items = items.map Value.sorted := by
  induction items with
  | nil => rfl
  | cons item rest ih => rw [Value.sortedItems, ih, List.map_cons]

/-- Texts are read from a sorted value exactly if the value is an array of them. -/
theorem readTexts_sorted {texts : List String} :
    readTexts (Value.sorted value) = .ok texts ↔ value = .array (texts.map .text) := by
  cases value with
  | null | bool | number | text | object => simp [Value.sorted, readTexts]
  | array items =>
    rw [Value.sorted, readTexts, Document.array.injEq]
    induction items generalizing texts with
    | nil =>
      cases texts with
      | nil => exact iff_of_true rfl rfl
      | cons => exact iff_of_false (fun h => by cases h) (fun h => by cases h)
    | cons item rest ih =>
      rw [Value.sortedItems, List.mapM_cons]
      constructor
      · intro h
        obtain ⟨first, hfirst, h⟩ := bind_eq_ok h
        obtain ⟨others, hothers, h⟩ := bind_eq_ok h
        cases h
        rw [List.map_cons, readText_sorted.1 hfirst, ih.1 hothers]
      · intro h
        cases texts with
        | nil => cases h
        | cons first others =>
          obtain ⟨rfl, hrest⟩ := List.cons.inj h
          show (readText (Value.sorted (.text first)) >>= _) = _
          rw [readText_sorted.2 rfl]
          show (List.mapM readText (Value.sortedItems rest) >>= _) = _
          rw [ih.2 hrest]
          rfl

/-- A kind of command is found by its name and by no other. -/
theorem ofName?_eq_some {name : String} {kind : Command.Kind} :
    Command.Kind.ofName? name = some kind ↔ name = kind.name := by
  constructor
  · intro h
    have hname := List.find?_some h
    exact (of_decide_eq_true hname).symm
  · rintro rfl
    exact Command.Kind.ofName?_name kind

/-- A kind of command is read from its name and from no other. -/
theorem readKindName_iff {name : String} {kind : Command.Kind} :
    readKindName name = .ok kind ↔ name = kind.name := by
  rw [← ofName?_eq_some, readKindName]
  cases Command.Kind.ofName? name <;> simp

/-- A kind is read from an object exactly if its name is there alone, with null behind it. -/
theorem readKind_object {members : List (String × Value)} {kind : Command.Kind} :
    readKind (.object members) = .ok kind ↔ members = [(kind.name, .null)] := by
  constructor
  · intro h
    rcases members with _ | ⟨⟨name, content⟩, _ | ⟨second, rest⟩⟩
    · cases h
    · obtain ⟨_, hkind, h⟩ := bind_eq_ok h
      split at h
      · cases h
        rw [readKindName_iff.1 hkind]
      · cases h
    · cases h
  · rintro rfl
    show (readKindName kind.name >>= _) = _
    rw [readKindName_iff.2 rfl]
    rfl

/-- A sorted object is a name alone with null behind it if the members have no other name, and last
null under that one. -/
theorem sortedMembers_eq_null {members : List (String × Value)} {name : String} :
    Value.sortedMembers members [] = [(name, .null)] ↔
      (∀ other ∈ names members, other = name) ∧ lastMember? members name = some .null := by
  have hlookup := member?_sorted members name
  rw [Value.sorted, Value.member?] at hlookup
  constructor
  · intro h
    have hnames : names (Value.sortedMembers members []) = [name] := congrArg names h
    rw [h, List.lookup_cons_self] at hlookup
    obtain ⟨last, hlast, hnull⟩ := Option.map_eq_some_iff.1 hlookup.symm
    exact ⟨(names_sortedMembers_eq_singleton.1 hnames).2, sorted_eq_null.1 hnull ▸ hlast⟩
  · rintro ⟨honly, hlast⟩
    have hmem : name ∈ names members := isSome_lastMember?.1 (Option.isSome_of_eq_some hlast)
    have hnames := names_sortedMembers_eq_singleton.2 ⟨hmem, honly⟩
    obtain ⟨⟨other, content⟩, hsingle, rfl⟩ := List.map_eq_singleton_iff.1 hnames
    rw [hsingle, List.lookup_cons_self, hlast] at hlookup
    cases hlookup
    exact hsingle

/-- A kind is read from a sorted value exactly if the value is one of its forms. -/
theorem readKind_sorted {kind : Command.Kind} :
    readKind (Value.sorted value) = .ok kind ↔ IsKind value kind := by
  cases value with
  | null | bool | number | array => exact iff_of_false (fun h => by cases h) (fun h => by cases h)
  | text name =>
    refine readKindName_iff.trans ⟨?_, fun h => ?_⟩
    · rintro rfl
      exact .name kind
    · cases h
      rfl
  | object members =>
    rw [Value.sorted, readKind_object, sortedMembers_eq_null]
    constructor
    · rintro ⟨honly, hlast⟩
      exact .member honly hlast
    · intro h
      cases h with
      | member honly hlast => exact ⟨honly, hlast⟩

/-! ## Commands -/

/-- An object is read as a command when the last member of each name gives its part. -/
theorem readCommand_object {members : List (String × Value)} :
    readCommand (Value.sorted (.object members)) = .ok command ↔
      ∀ part : Part, ∃ value, lastMember? members part.name = some value ∧
        part.Gives (Value.sorted value) command := by
  have hread : readCommand (Value.sorted (.object members)) = .ok command ↔
      ∀ part, Draft.Yields {} part ((Value.sortedMembers members []).lookup part.name) command := by
    rw [← Draft.readMembers_iff (nodup_sortedMembers members), Value.sorted, readCommand]
    constructor
    · intro h
      obtain ⟨last, hlast, hfinish⟩ := bind_eq_ok h
      exact ⟨last, hlast, Draft.finish_iff.1 hfinish⟩
    · rintro ⟨last, hlast, hhas⟩
      rw [hlast]
      exact Draft.finish_iff.2 hhas
  rw [hread]
  refine forall_congr' fun part => ?_
  rw [lookup_sortedMembers]
  cases lastMember? members part.name with
  | none =>
    -- Nothing is kept of a part that the object does not have, and the draft began without it.
    refine iff_of_false (not_has_empty part command) ?_
    rintro ⟨value, hvalue, _⟩
    cases hvalue
  | some value => simp [Draft.Yields]

/-- An array is read as a command when its items give the parts in their order, and no more. -/
theorem readCommand_array {items : List Value} :
    readCommand (Value.sorted (.array items)) = .ok command ↔
      List.Forall₂ (fun part value => Part.Gives part (Value.sorted value) command) Part.all
        items := by
  have hitems := @Draft.readItems_iff {} command Part.all (by decide)
    (Value.sortedItems items).length (Value.sortedItems items)
  have hall : ∀ part : Part, part ∈ Part.all := by
    intro part
    cases part <;> decide
  have hsorted : List.Forall₂ (fun part value => Part.Gives part value command) Part.all
      (Value.sortedItems items) ↔
      List.Forall₂ (fun part value => Part.Gives part (Value.sorted value) command) Part.all
        items := by
    rw [sortedItems_eq_map, List.forall₂_map_right_iff]
  rw [← hsorted, Value.sorted, readCommand]
  constructor
  · intro h
    obtain ⟨last, hlast, hfinish⟩ := bind_eq_ok h
    exact (hitems.1 ⟨last, hlast, Draft.finish_iff.1 hfinish⟩).1
  · intro h
    obtain ⟨last, hlast, hhas⟩ := hitems.2 ⟨h, fun part hpart => absurd (hall part) hpart⟩
    rw [hlast]
    exact Draft.finish_iff.2 hhas

/-- A sorted document is read as the command that it describes. -/
theorem readCommand_iff {document : Value} :
    readCommand (Value.sorted document) = .ok command ↔ Describes document command := by
  cases document with
  | null | bool | number | text => exact iff_of_false (fun h => by cases h) (fun h => by cases h)
  | object members =>
    rw [readCommand_object]
    constructor
    · intro h
      obtain ⟨msg, hmsg, hkind⟩ := h .msg
      obtain ⟨oid, hoid, hoidText⟩ := h .oid
      obtain ⟨symbol, hsymbol, hsymbolText⟩ := h .symbol
      obtain ⟨brokers, hbrokers, hbrokerTexts⟩ := h .brokers
      obtain ⟨price, hprice, hnumber⟩ := h .price
      -- A part that is read from a sorted value fixes the value, but for the kind, which may be
      -- tagged.
      obtain rfl := readText_sorted.1 hoidText
      obtain rfl := readText_sorted.1 hsymbolText
      obtain rfl := readTexts_sorted.1 hbrokerTexts
      obtain ⟨n, rfl, hn⟩ := readNumber_sorted.1 hnumber
      exact .object hmsg (readKind_sorted.1 hkind) hoid hsymbol hbrokers hprice hn
    · rintro h part
      cases h with
      | object hmsg hkind hoid hsymbol hbrokers hprice hn =>
        cases part with
        | msg => exact ⟨_, hmsg, readKind_sorted.2 hkind⟩
        | oid => exact ⟨_, hoid, readText_sorted.2 rfl⟩
        | symbol => exact ⟨_, hsymbol, readText_sorted.2 rfl⟩
        | brokers => exact ⟨_, hbrokers, readTexts_sorted.2 rfl⟩
        | price => exact ⟨_, hprice, readNumber_sorted.2 ⟨_, rfl, hn⟩⟩
  | array items =>
    rw [readCommand_array]
    constructor
    · intro h
      cases h with
      | cons hmsg h =>
      cases h with
      | cons hoid h =>
      cases h with
      | cons hsymbol h =>
      cases h with
      | cons hbrokers h =>
      cases h with
      | cons hprice h =>
      cases h
      obtain rfl := readText_sorted.1 hoid
      obtain rfl := readText_sorted.1 hsymbol
      obtain rfl := readTexts_sorted.1 hbrokers
      obtain ⟨n, rfl, hn⟩ := readNumber_sorted.1 hprice
      exact .array (readKind_sorted.1 hmsg) hn
    · intro h
      cases h with
      | array hkind hn =>
        exact .cons (readKind_sorted.2 hkind) (.cons (readText_sorted.2 rfl)
          (.cons (readText_sorted.2 rfl) (.cons (readTexts_sorted.2 rfl)
            (.cons (readNumber_sorted.2 ⟨_, rfl, hn⟩) .nil))))

/-- A command is found unsupported if its document is. -/
theorem unsupportedKind?_iff {document : Value} :
    (unsupportedKind? (Value.sorted document)).isSome = true ↔ IsUnsupported document := by
  unfold unsupportedKind? IsUnsupported
  cases document with
  | null | bool | number | text | array => exact ⟨nofun, fun ⟨_, _, h, _⟩ => by cases h⟩
  | object members =>
    rw [member?_sorted]
    cases hmsg : lastMember? members "msg" with
    | none =>
      refine ⟨nofun, ?_⟩
      rintro ⟨_, msg, heq, hlast, _⟩
      cases heq
      cases hmsg.symm.trans hlast
    | some msg =>
      dsimp only [Option.map_some, Option.bind_some]
      cases hkind : readKind (Value.sorted msg) with
      | ok kind =>
        refine ⟨nofun, ?_⟩
        rintro ⟨_, other, heq, hlast, hnone⟩
        cases heq
        cases hmsg.symm.trans hlast
        exact absurd (readKind_sorted.1 hkind) (hnone kind)
      | error mismatch =>
        refine iff_of_true rfl ⟨members, msg, rfl, hmsg, fun kind h => ?_⟩
        cases hkind.symm.trans (readKind_sorted.2 h)

/-- A line is read if it is the text of a document, and gives that document sorted. -/
theorem readValue_iff {line : String} {value : Value} :
    readValue line = .ok value ↔
      ∃ document, IsJson line document ∧ value = Value.sorted document := by
  unfold IsJson readValue
  constructor
  · intro h
    split at h
    · next document hscan =>
      cases h
      exact ⟨document, (scanWholeDocument_iff reads_strict).1 hscan, rfl⟩
    · cases h
  · rintro ⟨document, hjson, rfl⟩
    have hscan := (scanWholeDocument_iff reads_strict).2 hjson
    rw [hscan]

/-- A line is the text of one document at most. -/
theorem IsJson.unique {line : String} {first second : Value} (hfirst : IsJson line first)
    (hsecond : IsJson line second) : first = second :=
  Except.ok.inj (((scanWholeDocument_iff reads_strict).2 hfirst).symm.trans
    ((scanWholeDocument_iff reads_strict).2 hsecond))

/-- The order id that a document has last is found. -/
theorem oidOf_eq {members : List (String × Value)} {oid : String}
    (h : lastMember? members "oid" = some (.text oid)) :
    oidOf (Value.sorted (.object members)) = oid := by
  rw [oidOf, member?_sorted, h]
  rfl

/-- Without a text for it, no order id is found. -/
theorem oidOf_eq_empty {document : Value} (h : ∀ members oid, document = .object members →
    lastMember? members "oid" ≠ some (.text oid)) : oidOf (Value.sorted document) = "" := by
  cases document with
  | null | bool | number | text | array => rfl
  | object members =>
    rw [oidOf, member?_sorted]
    cases hoid : lastMember? members "oid" with
    | none => rfl
    | some value =>
      cases value with
      | text oid => exact absurd hoid (h members oid rfl)
      | null | bool | number | array | object => rfl

/-- A rejection echoes the order id that the line gives, and an empty one if it gives none. -/
def Echoes (line oid : String) : Prop :=
  GivesOid line oid ∨ oid = "" ∧ ∀ other, ¬GivesOid line other

/-- What is found is what a rejection echoes. -/
theorem echoes_oidOf {line : String} {document : Value} (h : IsJson line document) :
    Echoes line (oidOf (Value.sorted document)) := by
  by_cases hgives : ∃ oid, GivesOid line oid
  · obtain ⟨oid, members, hjson, hoid⟩ := hgives
    obtain rfl := h.unique hjson
    rw [oidOf_eq hoid]
    exact .inl ⟨members, hjson, hoid⟩
  · refine .inr ⟨oidOf_eq_empty fun members oid heq hoid => ?_, fun oid h => hgives ⟨oid, h⟩⟩
    exact hgives ⟨oid, members, heq ▸ h, hoid⟩

/-- A reason starts with some words. -/
def StartsWith (reason words : String) : Prop := words.toList <+: reason.toList

/-- A reason that goes on starts with the same words. -/
theorem StartsWith.append {first words : String} (h : StartsWith first words) (rest : String) :
    StartsWith (first ++ rest) words := by
  rw [StartsWith, String.toList_append]
  exact List.IsPrefix.trans h (List.prefix_append _ _)

/-- No reason starts with words that begin with different characters. -/
theorem StartsWith.head_eq {reason first second : String} (hfirst : StartsWith reason first)
    (hsecond : StartsWith reason second) {c d : Char} {cs ds : List Char}
    (hc : first.toList = c :: cs) (hd : second.toList = d :: ds) : c = d := by
  unfold StartsWith at hfirst hsecond
  obtain ⟨more, hmore⟩ := hc ▸ hfirst
  obtain ⟨others, hothers⟩ := hd ▸ hsecond
  exact (List.cons.inj (hmore.trans hothers.symm)).1

/-- The reason of a rejection starts with what is wrong with the line: it is not JSON, or its `msg`
is no kind of command, or it is no command otherwise. -/
structure Blames (line reason : String) : Prop where
  malformed : StartsWith reason "malformed command" ↔ ∀ document, ¬IsJson line document
  unsupported : StartsWith reason "unsupported command" ↔
    ∃ document, IsJson line document ∧ IsUnsupported document
  invalid : StartsWith reason "invalid command" ↔
    ∃ document, IsJson line document ∧ ¬IsUnsupported document

/-- What becomes of a line: it is a command exactly if it is a document that describes this command,
and every other line is rejected with its order id and what is wrong with it. -/
structure Decodes (line : String) (outcome : Except Event Command) : Prop where
  accepts : ∀ command, outcome = .ok command ↔
    ∃ document, IsJson line document ∧ Describes document command
  rejects : ∀ event, outcome = .error event →
    ∃ oid reason, event = Event.rejectedLine oid reason ∧ Echoes line oid ∧ Blames line reason

/-- A line whose `msg` is no kind of command is blamed for that. -/
theorem IsJson.blames_unsupported {line : String} {document : Value} (h : IsJson line document)
    (hkind : IsUnsupported document) {reason : String}
    (hstarts : StartsWith reason "unsupported command") : Blames line reason := by
  refine ⟨⟨fun hother => ?_, fun hnone => absurd h (hnone document)⟩,
    iff_of_true hstarts ⟨document, h, hkind⟩, ⟨fun hother => ?_, ?_⟩⟩
  · cases hstarts.head_eq hother rfl rfl
  · cases hstarts.head_eq hother rfl rfl
  · rintro ⟨other, hjson, hnot⟩
    exact absurd (h.unique hjson ▸ hkind) hnot

/-- Any other document that is no command is blamed for that. -/
theorem IsJson.blames_invalid {line : String} {document : Value} (h : IsJson line document)
    (hkind : ¬IsUnsupported document) {reason : String}
    (hstarts : StartsWith reason "invalid command") : Blames line reason := by
  refine ⟨⟨fun hother => ?_, fun hnone => absurd h (hnone document)⟩, ⟨fun hother => ?_, ?_⟩,
    iff_of_true hstarts ⟨document, h, hkind⟩⟩
  · cases hstarts.head_eq hother rfl rfl
  · cases hstarts.head_eq hother rfl rfl
  · rintro ⟨other, hjson, hunsupported⟩
    exact absurd (h.unique hjson ▸ hunsupported) hkind

/-- A line that is not JSON is blamed for that. -/
theorem blames_malformed {line reason : String} (h : ∀ document, ¬IsJson line document)
    (hstarts : StartsWith reason "malformed command") : Blames line reason := by
  refine ⟨iff_of_true hstarts h, ⟨fun hother => ?_, ?_⟩, ⟨fun hother => ?_, ?_⟩⟩
  · cases hstarts.head_eq hother rfl rfl
  · exact fun ⟨document, hjson, _⟩ => absurd hjson (h document)
  · cases hstarts.head_eq hother rfl rfl
  · exact fun ⟨document, hjson, _⟩ => absurd hjson (h document)

/-- What a rejected line is told. -/
theorem rejects_decodeLine {line : String} {event : Event} (h : decodeLine line = .error event) :
    ∃ oid reason, event = Event.rejectedLine oid reason ∧ Echoes line oid ∧ Blames line reason := by
  unfold decodeLine at h
  split at h
  · next located hread =>
    cases h
    have hnone : ∀ document, ¬IsJson line document := fun document hjson => by
      cases hread.symm.trans (readValue_iff.2 ⟨document, hjson, rfl⟩)
    refine ⟨_, _, rfl, .inr ⟨rfl, fun oid ⟨members, hjson, _⟩ => hnone _ hjson⟩, ?_⟩
    exact blames_malformed hnone (StartsWith.append ⟨[':', ' '], rfl⟩ _)
  · next value hread =>
    obtain ⟨document, hjson, rfl⟩ := readValue_iff.1 hread
    split at h
    · next msg hmsg =>
      cases h
      have hkind := unsupportedKind?_iff.1 (Option.isSome_of_eq_some hmsg)
      exact ⟨_, _, rfl, echoes_oidOf hjson,
        hjson.blames_unsupported hkind (StartsWith.append ⟨[' '], rfl⟩ _)⟩
    · next hmsg =>
      have hkind : ¬IsUnsupported document := fun hkind => by
        have hsome := unsupportedKind?_iff.2 hkind
        rw [hmsg] at hsome
        cases hsome
      split at h
      · cases h
      · cases h
        exact ⟨_, _, rfl, echoes_oidOf hjson,
          hjson.blames_invalid hkind (StartsWith.append ⟨[':', ' '], rfl⟩ _)⟩

/-- A command says its kind, so it is not rejected for that. -/
theorem Describes.not_isUnsupported {document : Value} (h : Describes document command) :
    ¬IsUnsupported document := by
  rintro ⟨members, msg, rfl, hmsg, hnone⟩
  cases h with
  | object hfound hkind =>
    cases hfound.symm.trans hmsg
    exact hnone _ hkind

/-- Every line is decoded by the grammar of commands. -/
theorem decodes (line : String) : Decodes line (decodeLine line) where
  rejects _ := rejects_decodeLine
  accepts command := by
    unfold decodeLine
    constructor
    · intro h
      split at h
      · cases h
      · next value hread =>
        obtain ⟨document, hjson, rfl⟩ := readValue_iff.1 hread
        split at h
        · cases h
        · split at h
          · next hcommand =>
            cases h
            exact ⟨document, hjson, readCommand_iff.1 hcommand⟩
          · cases h
    · rintro ⟨document, hjson, hdescribes⟩
      have hnone : unsupportedKind? (Value.sorted document) = none := by
        rw [← Option.not_isSome_iff_eq_none, unsupportedKind?_iff]
        exact hdescribes.not_isUnsupported
      simp only [readValue_iff.2 ⟨document, hjson, rfl⟩, hnone, readCommand_iff.2 hdescribes]

end TriggerDesk.Wire
