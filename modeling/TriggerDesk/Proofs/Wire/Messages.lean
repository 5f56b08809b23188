import TriggerDesk.Client.Terminal
import TriggerDesk.Journal.File
import TriggerDesk.Proofs.Json.RoundTrip
import TriggerDesk.Proofs.Wire.Framing

/-!
# Messages come back as they were

Commands, events and journal entries are written as lines of JSON text and read again, the commands
by the reader of a connection, the events by the terminal of a client. Each line is one message and
is read as that message (`Wire.conveyed`), as long as its binary64 numbers are ones whose text reads
back. Nothing is asked of the texts in it.
-/

namespace TriggerDesk

open Json TriggerDesk.Order

variable {command : Command} {event : Event} {depth : Option Nat}

/-! ## Texts in arrays -/

/-- Texts can be read, whatever numbers mean. -/
theorem readableItemsAs_texts (meaning : Number → Number) (texts : List String)
    (depth : Option Nat) : Value.ReadableItemsAs meaning depth (texts.map .text) := by
  induction texts with
  | nil => trivial
  | cons text rest ih => exact ⟨trivial, ih⟩

/-- Texts are not changed by sorting. -/
theorem sortedItems_texts (texts : List String) :
    Value.sortedItems (texts.map .text) = texts.map .text := by
  induction texts with
  | nil => rfl
  | cons text rest ih => exact congrArg (List.cons _) ih

/-- Texts are read one by one. -/
theorem mapM_readText (texts : List String) :
    (texts.map Document.text).mapM Wire.readText = .ok texts := by
  induction texts with
  | nil => rfl
  | cons text rest ih =>
    rw [List.map_cons, List.mapM_cons, ih]
    rfl

/-- A list of texts is read as it is. -/
theorem list?_texts (texts : List String) :
    Lenient.list? Lenient.text? (.array (Value.imageItems some some (texts.map .text))) =
      some texts := by
  show (Value.imageItems some some (texts.map .text)).mapM Lenient.text? = some texts
  induction texts with
  | nil => rfl
  | cons text rest ih =>
    rw [List.map_cons, Value.imageItems, List.mapM_cons, ih]
    rfl

/-! ## Parts of a message -/

/-- The members of an object, as they are read. -/
def lenientMembers (members : List (String × Value)) : List (String × Lenient) :=
  members.map fun member => (member.1, member.2.image some some)

/-- Members are read with their names. -/
theorem mapM_imageMembers (members : List (String × Value)) :
    (Value.imageMembers some some members).mapM
      (fun (name, document) => name.map (·, document)) = some (lenientMembers members) := by
  induction members with
  | nil => rfl
  | cons member rest ih =>
    rw [Value.imageMembers, List.mapM_cons, ih]
    rfl

/-- The only member of a name is found, read as it is. -/
theorem only?_lenientMembers {members : List (String × Value)} (hnodup : (members.map (·.1)).Nodup)
    (name : String) :
    Lenient.only? name (lenientMembers members) =
      some ((members.lookup name).map (Value.image some some)) := by
  unfold Lenient.only?
  induction members with
  | nil => rfl
  | cons member rest ih =>
    obtain ⟨other, value⟩ := member
    obtain ⟨hnew, hrest⟩ := List.nodup_cons.1 hnodup
    rw [lenientMembers, List.map_cons, ← lenientMembers]
    by_cases heq : other = name
    · subst heq
      have hnone : (lenientMembers rest).filter (·.1 = other) = [] := by
        refine List.filter_eq_nil_iff.2 fun found hfound => ?_
        obtain ⟨member, hmember, rfl⟩ := List.mem_map.1 hfound
        simpa using fun hsame : member.1 = other => hnew (List.mem_map.2 ⟨member, hmember, hsame⟩)
      rw [List.filter_cons_of_pos (by simp), hnone, List.lookup_cons_self]
      rfl
    · have hne : (name == other) = false := by simpa using Ne.symm heq
      rw [List.filter_cons_of_neg (by simpa using heq), ih hrest, List.lookup_cons, hne]

/-- The members of several names are found, each the only one of its name. -/
theorem mapM_only? {members : List (String × Value)} (hnodup : (members.map (·.1)).Nodup)
    (names : List String) :
    names.mapM (fun name => Lenient.only? name (lenientMembers members)) =
      some (names.map fun name => (members.lookup name).map (Value.image some some)) := by
  induction names with
  | nil => rfl
  | cons name rest ih =>
    rw [List.mapM_cons, ih, only?_lenientMembers hnodup]
    rfl

/-- The parts of an object whose names are all different. -/
theorem parts?_object {members : List (String × Value)} (hnodup : (members.map (·.1)).Nodup)
    (names : List String) :
    Lenient.parts? names (Value.image some some (.object members)) =
      some (names.map fun name => (members.lookup name).map (Value.image some some)) := by
  show ((Value.imageMembers some some members).mapM _ >>= fun members =>
    names.mapM fun name => Lenient.only? name members) = _
  rw [mapM_imageMembers]
  exact mapM_only? hnodup names

/-! ## Commands -/

/-- A command whose price is read back. -/
def Order.Command.ReadsBack (command : Command) : Prop := Json.ReadsBack command.price

/-- The value of a command whose price is written as some value. -/
def Order.Command.pricedAs (command : Command) (price : Value) : Value :=
  .object
    [("msg", .text command.kind.name),
     ("oid", .text command.oid),
     ("symbol", .text command.symbol),
     ("brokers", .array (command.brokers.map .text)),
     ("price", price)]

/-- A command can be read if what is written for its price can. -/
theorem readableAs_pricedAs {meaning : Number → Number} {price : Value}
    (hprice : price.ReadableAs meaning (below depth)) (hdepth : depth ≠ some 0)
    (hbelow : below depth ≠ some 0) : Value.ReadableAs meaning depth (command.pricedAs price) :=
  ⟨hdepth, trivial, trivial, trivial, ⟨hbelow, readableItemsAs_texts _ _ _⟩, hprice, trivial⟩

/-- A command can be read if its price is read back. -/
theorem readable_command (h : command.ReadsBack) (hdepth : depth ≠ some 0)
    (hbelow : below depth ≠ some 0) : command.toJson.Readable depth :=
  readableAs_pricedAs (spells_real h) hdepth hbelow

section Priced

variable {price : Value}

/-- A sorted command has its parts in the order of their names. -/
theorem sorted_pricedAs (command : Command) (hprice : Value.sorted price = price) :
    Value.sorted (command.pricedAs price) = .object
      [("brokers", .array (command.brokers.map .text)),
       ("msg", .text command.kind.name),
       ("oid", .text command.oid),
       ("price", price),
       ("symbol", .text command.symbol)] := by
  have hitems := sortedItems_texts command.brokers
  simp only [Command.pricedAs, Value.sorted, Value.sortedMembers, hitems, hprice, setMember,
    String.reduceLT, String.reduceEq, if_true, if_false]

/-- All other parts are read as they are. -/
theorem readCommand_pricedAs (command : Command) (hprice : Value.sorted price = price) :
    Wire.readCommand (Value.sorted (command.pricedAs price)) =
      (Wire.readNumber price).map fun read => { command with price := read } := by
  have hkind : Wire.readKindName command.kind.name = .ok command.kind := by
    rw [Wire.readKindName, Command.Kind.ofName?_name]
  have hbrokers := mapM_readText command.brokers
  rw [sorted_pricedAs command hprice]
  show (Wire.Draft.readMembers {} _ >>= Wire.Draft.finish) = _
  have hdraft : Wire.Draft.readMembers {}
      [("brokers", .array (command.brokers.map .text)), ("msg", .text command.kind.name),
       ("oid", .text command.oid), ("price", price), ("symbol", .text command.symbol)] =
      (Wire.readNumber price).map fun read =>
        ⟨command.kind, command.oid, command.symbol, command.brokers, read⟩ := by
    show (((Wire.readTexts _).map _) >>= _) = _
    rw [Wire.readTexts, hbrokers]
    show (((Wire.readKindName _).map _) >>= _) = _
    rw [hkind]
    show (((Wire.readNumber price).map _) >>= _) = _
    cases Wire.readNumber price <;> rfl
  rw [hdraft]
  cases Wire.readNumber price <;> rfl

/-- A command is of a kind that is supported, whatever its price. -/
theorem unsupportedKind?_pricedAs (command : Command) (hprice : Value.sorted price = price) :
    Wire.unsupportedKind? (Value.sorted (command.pricedAs price)) = none := by
  have hmember : Value.member? (Value.sorted (command.pricedAs price)) "msg" =
      some (.text command.kind.name) := by
    rw [sorted_pricedAs command hprice]
    rfl
  simp only [Wire.unsupportedKind?, hmember, Option.bind_some, Wire.readKind, Wire.readKindName,
    Command.Kind.ofName?_name]

/-- The order id of a line is there whatever stands for the price. -/
theorem oidOf_pricedAs (command : Command) (hprice : Value.sorted price = price) :
    Wire.oidOf (Value.sorted (command.pricedAs price)) = command.oid := by
  rw [sorted_pricedAs command hprice]
  rfl

end Priced

/-- A command is read from its sorted parts. -/
theorem readCommand_sorted (command : Command) :
    Wire.readCommand command.toJson.sorted = .ok command :=
  readCommand_pricedAs command rfl

/-- A sorted command is of a kind that is supported. -/
theorem unsupportedKind?_sorted (command : Command) :
    Wire.unsupportedKind? command.toJson.sorted = none :=
  unsupportedKind?_pricedAs command rfl

/-- A command is what its line decodes to. -/
theorem decodeLine_command (h : command.ReadsBack) :
    Wire.decodeLine command.toJson.write = .ok command := by
  have hread := readValue_write (readable_command h (by decide) (by decide))
  simp only [Wire.decodeLine, hread, unsupportedKind?_sorted, readCommand_sorted]

/-- A command is read from the value of a journal. -/
theorem ofJson?_command (command : Command) :
    Command.ofJson? (command.toJson.image some some) = some command := by
  have hparts : Lenient.parts? ["msg", "oid", "symbol", "brokers", "price"]
      (command.toJson.image some some) = some
        [some (.text (some command.kind.name)), some (.text (some command.oid)),
         some (.text (some command.symbol)),
         some (.array (Value.imageItems some some (command.brokers.map .text))),
         some (.number (some (.real command.price)))] := by
    have hnodup : ["msg", "oid", "symbol", "brokers", "price"].Nodup := by decide
    rw [Command.toJson, parts?_object (by exact hnodup)]
    simp [List.lookup_cons, Value.image]
  have hkind := Command.Kind.ofName?_name command.kind
  have hbrokers := list?_texts command.brokers
  unfold Command.ofJson?
  rw [hparts]
  simp [Lenient.choice?, Lenient.text?, Lenient.float?, Number.toFloat, hkind, hbrokers]

/-! ## Events -/

/-- The integers of 64 bits, from `-2 ^ 63` to `2 ^ 63 - 1`. -/
def Json.IsInt64 (i : Int) : Prop := -9223372036854775808 ≤ i ∧ i < 9223372036854775808

/-- An event whose numbers are read back. -/
structure Order.Event.ReadsBack (event : Event) : Prop where
  price : Json.ReadsBack event.price
  level : Json.ReadsBack event.level
  index : ∀ i, event.index = some i → Json.IsInt64 i

/-- An integer of 64 bits is read from its text. -/
theorem spells_ofInt {i : Int} (h : IsInt64 i) :
    Spells (Value.writeNumber (.ofInt i)) (.ofInt i) := by
  obtain ⟨hleast, hgreatest⟩ := h
  unfold Number.ofInt
  split
  · refine spells_negative (by omega) ?_
    show i.natAbs ≤ 9223372036854775808
    omega
  · refine spells_natural ?_
    show i.natAbs < 18446744073709551616
    omega

/-- An integer of 64 bits is read as one. -/
theorem toInt64?_ofInt {i : Int} (h : IsInt64 i) : (Number.ofInt i).toInt64? = some i := by
  obtain ⟨hleast, hgreatest⟩ := h
  unfold Number.ofInt
  split
  · show some (-(i.natAbs : Int)) = some i
    rw [show -(i.natAbs : Int) = i by omega]
  · have hbound : i.natAbs < Nat.pow 2 63 := by
      show i.natAbs < 9223372036854775808
      omega
    rw [Number.toInt64?, if_pos hbound, show (i.natAbs : Int) = i by omega]

/-- Members can be read if those in front and those behind can. -/
theorem readableMembersAs_append {meaning : Number → Number} {first second : List (String × Value)}
    (hfirst : Value.ReadableMembersAs meaning depth first)
    (hsecond : Value.ReadableMembersAs meaning depth second) :
    Value.ReadableMembersAs meaning depth (first ++ second) := by
  induction first with
  | nil => exact hsecond
  | cons member rest ih => exact ⟨hfirst.1, ih hfirst.2⟩

/-- A member that may be missing can be read if its value can. -/
theorem readableMembersAs_optional {meaning : Number → Number} (name : String)
    {value : Option Value} (h : ∀ found, value = some found → found.ReadableAs meaning depth) :
    Value.ReadableMembersAs meaning depth (Value.optionalMember name value) := by
  cases value with
  | none => trivial
  | some found => exact ⟨h found rfl, trivial⟩

/-- The numbers of an event are read one by one. -/
theorem readableAs_event {meaning : Number → Number}
    (hprice : Spells (Value.writeNumber (.real event.price)) (meaning (.real event.price)))
    (hlevel : Spells (Value.writeNumber (.real event.level)) (meaning (.real event.level)))
    (hindex : ∀ i, event.index = some i →
      Spells (Value.writeNumber (.ofInt i)) (meaning (.ofInt i)))
    (hdepth : depth ≠ some 0) : event.toJson.ReadableAs meaning depth := by
  refine ⟨hdepth, readableMembersAs_append (readableMembersAs_append (readableMembersAs_append
    (readableMembersAs_append (readableMembersAs_append ?_ ?_) ?_) ?_) ?_) ?_⟩
  · exact ⟨trivial, trivial, trivial, trivial, trivial⟩
  · refine readableMembersAs_optional "index" fun found hfound => ?_
    obtain ⟨i, hi, rfl⟩ := Option.map_eq_some_iff.1 hfound
    exact hindex i hi
  · exact ⟨hprice, hlevel, trivial⟩
  · refine readableMembersAs_optional "direction" fun found hfound => ?_
    obtain ⟨direction, _, rfl⟩ := Option.map_eq_some_iff.1 hfound
    trivial
  · exact ⟨trivial, trivial⟩
  · refine readableMembersAs_optional "reason" fun found hfound => ?_
    obtain ⟨reason, _, rfl⟩ := Option.map_eq_some_iff.1 hfound
    trivial

/-- An event can be read if its numbers are read back. -/
theorem readable_event (h : event.ReadsBack) (hdepth : depth ≠ some 0) :
    event.toJson.Readable depth :=
  readableAs_event (spells_real h.price) (spells_real h.level)
    (fun i hi => spells_ofInt (h.index i hi)) hdepth

/-- A member that may be missing is found under its name only. -/
theorem lookup_optionalMember (name other : String) (value : Option Value) :
    (Value.optionalMember other value).lookup name = if name = other then value else none := by
  cases value with
  | none => simp [Value.optionalMember]
  | some value =>
    rw [Value.optionalMember, List.lookup_cons]
    split <;> simp_all

/-- A member that may be missing adds one name at most. -/
theorem names_optionalMember (name : String) (value : Option Value) :
    ((Value.optionalMember name value).map (·.1)).Sublist [name] := by
  cases value <;> simp [Value.optionalMember]

/-- The names of the parts of an event, those that it has and those that it may lack. -/
def eventNames : List String :=
  ["msg", "oid", "symbol", "broker", "index", "price", "level", "direction", "name", "reason"]

/-- The event as a list of its parts. -/
theorem parts?_event (event : Event) :
    Lenient.parts? eventNames (event.toJson.image some some) = some
      [some (.text event.kind.name), some (.text (some event.oid)),
       some (.text (some event.symbol)), some (.text (some event.broker)),
       event.index.map fun i => .number (some (.ofInt i)),
       some (.number (some (.real event.price))), some (.number (some (.real event.level))),
       event.direction.map fun direction => .text (some direction.name),
       some (.text (some event.name)), event.reason.map fun reason => .text (some reason)] := by
  rw [Event.toJson, parts?_object]
  · simp [eventNames, List.lookup_append, lookup_optionalMember, List.lookup_cons, Value.image,
      Function.comp_def]
  · have hnames : (["msg", "oid", "symbol", "broker"] ++ ["index"] ++ ["price", "level"] ++
        ["direction"] ++ ["name"] ++ ["reason"]).Nodup := by decide
    refine hnames.sublist ?_
    simp only [List.map_append]
    exact ((((List.Sublist.append (List.Sublist.append (List.Sublist.refl _)
      (names_optionalMember _ _)) (List.Sublist.refl _)).append (names_optionalMember _ _)).append
      (List.Sublist.refl _)).append (names_optionalMember _ _))

/-- An event is read from its value, if its index has 64 bits. -/
theorem ofJson?_event (h : ∀ i, event.index = some i → IsInt64 i) :
    Event.ofJson? (event.toJson.image some some) = some event := by
  have hparts := parts?_event event
  have hkind := Event.Kind.ofName?_name event.kind
  have hgiven : ∀ {α : Type} (read : Lenient → Option α) (default : α) (document : Lenient),
      Lenient.orElse read default (some document) = read document := fun _ _ _ => rfl
  -- A part that the event lacks has the default that stands for it.
  have hindex : Lenient.orElse (Lenient.optional? Lenient.int?) none
      (event.index.map fun i => .number (some (.ofInt i))) = some event.index := by
    cases hsome : event.index with
    | none => rfl
    | some i =>
      show ((Number.ofInt i).toInt64?).map some = _
      rw [toInt64?_ofInt (h i hsome)]
      rfl
  have hdirection : Lenient.orElse (Lenient.optional? (Lenient.choice? Direction.ofName?)) none
      (event.direction.map fun direction => .text (some direction.name)) =
        some event.direction := by
    cases event.direction with
    | none => rfl
    | some direction => cases direction <;> rfl
  have hreason : Lenient.orElse (Lenient.optional? Lenient.text?) none
      (event.reason.map fun reason => .text (some reason)) = some event.reason := by
    cases event.reason <;> rfl
  rw [eventNames] at hparts
  unfold Event.ofJson?
  rw [hparts]
  simp [Lenient.choice?, Lenient.text?, Lenient.float?, Number.toFloat, hgiven, hkind, hindex,
    hdirection, hreason]

/-! ## Journal entries -/

/-- An entry whose numbers are read back. -/
def Journal.Entry.ReadsBack : Journal.Entry → Prop
  | .command request => request.ReadsBack
  | .event answer => answer.ReadsBack
  | .note _ => True

/-- An entry of a journal can be read if its numbers are read back. -/
theorem readable_entry {entry : Journal.Entry} (h : entry.ReadsBack) :
    entry.toJson.Readable none := by
  cases entry with
  | command request => exact ⟨nofun, readable_command h nofun nofun, trivial⟩
  | event answer => exact ⟨nofun, readable_event h nofun, trivial⟩
  | note content => exact ⟨nofun, trivial, trivial⟩

/-- An entry of a journal is read from its value. -/
theorem ofJson?_entry {entry : Journal.Entry} (h : entry.ReadsBack) :
    Journal.Entry.ofJson? (entry.toJson.image some some) = some entry := by
  cases entry with
  | command request =>
    show (Command.ofJson? (request.toJson.image some some)).map _ = _
    rw [ofJson?_command]
    rfl
  | event answer =>
    show (Event.ofJson? (answer.toJson.image some some)).map _ = _
    rw [ofJson?_event (Event.ReadsBack.index h)]
    rfl
  | note content => rfl

/-! ## Lines of messages -/

/-- What is read from the line of a message, which is one line and not blank. -/
structure Conveys {α : Type} (line : String) (read : String → α) (result : α) : Prop where
  oneLine : Wire.IsOneLine line
  notBlank : Text.isBlankText line = false
  reads : read line = result

/-- A value that can be read is written on one line. -/
theorem isOneLine_write {value : Value} {meaning : Number → Number}
    (h : value.ReadableAs meaning depth) : Wire.IsOneLine value.write := by
  intro c hc
  rw [Value.write, String.toList_ofList] at hc
  have hprintable := printable_chars value depth h c hc
  refine ⟨?_, ?_⟩ <;>
  · rintro rfl
    revert hprintable
    decide

/-- An object starts with a brace. -/
theorem notBlank_object (members : List (String × Value)) :
    Text.isBlankText (Value.write (.object members)) = false := by
  rw [Text.isBlankText, Value.write, String.toList_ofList]
  rcases members with _ | ⟨⟨name, value⟩, members⟩ <;> rfl

/-- A command whose price is read back is conveyed. -/
theorem conveys_command (h : command.ReadsBack) :
    Conveys command.toJson.write Wire.decodeLine (.ok command) where
  oneLine := isOneLine_write (readable_command h (show none ≠ some 0 from nofun) nofun)
  notBlank := notBlank_object _
  reads := decodeLine_command h

/-- An event whose numbers are read back is conveyed. -/
theorem conveys_event (h : event.ReadsBack) :
    Conveys (Wire.Connection.eventLine event) Event.ofLine? (some event) where
  oneLine := isOneLine_write (readable_event h (show none ≠ some 0 from nofun))
  notBlank := notBlank_object _
  reads := by
    rw [Event.ofLine?, Wire.Connection.eventLine, readLenient?_write (readable_event h nofun)]
    exact ofJson?_event h.index

/-- An entry of a journal whose numbers are read back is conveyed. -/
theorem conveys_entry {entry : Journal.Entry} (h : entry.ReadsBack) :
    Conveys entry.line (fun line => readLenient? line >>= Journal.Entry.ofJson?) (some entry) where
  oneLine := isOneLine_write (readable_entry h)
  notBlank := by cases entry <;> exact notBlank_object _
  reads := by
    show (readLenient? entry.toJson.write >>= Journal.Entry.ofJson?) = _
    rw [readLenient?_write (readable_entry h)]
    exact ofJson?_entry h

/-- Messages that are framed one after the other are read line by line as they were. -/
theorem readLines_conveyed {α β : Type} {messages : List α} {line : α → String}
    {read : String → β} {result : α → β}
    (h : ∀ message ∈ messages, Conveys (line message) read (result message)) :
    Wire.readLines (messages.flatMap fun message => Wire.frame (line message)) =
        messages.map line ∧
      (messages.map line).map read = messages.map result := by
  constructor
  · have hone : ∀ text ∈ messages.map line, Wire.IsOneLine text := by
      intro text htext
      obtain ⟨message, hmessage, rfl⟩ := List.mem_map.1 htext
      exact (h message hmessage).oneLine
    have hlines := Wire.readLines_frames hone
    rwa [List.flatMap_map] at hlines
  · rw [List.map_map]
    exact List.map_congr_left fun message hmessage => (h message hmessage).reads

/-! ## Who reads them -/

/-- The bytes of some commands, as they go to a session. -/
def commandBytes (commands : List Command) : List UInt8 :=
  commands.flatMap fun command => Wire.frame command.toJson.write

/-- The bytes of some events, as they go to a client. -/
def eventBytes (events : List Event) : List UInt8 :=
  events.flatMap fun event => Wire.frame (Wire.Connection.eventLine event)

/-- The reader of a connection takes up the command of a line. -/
theorem readerStep_command {connection : Wire.Connection} {rest : List UInt8}
    (h : command.ReadsBack) (hreading : connection.reader = .reading)
    (hrunning : connection.session.isEnded = false)
    (hbytes : connection.incoming.bytes = Wire.frame command.toJson.write ++ rest) :
    connection.readerStep = some { connection with
      incoming := { connection.incoming with bytes := rest }, reader := .forwarding command } := by
  have hconveys := conveys_command h
  have hnext := Wire.next_frame hconveys.oneLine rest connection.incoming.isOpen
  rw [← hbytes] at hnext
  unfold Wire.Connection.readerStep
  rw [hreading]
  simp only [hrunning, Bool.false_eq_true, if_false]
  rw [show connection.incoming.next = _ from hnext]
  simp only [Wire.Connection.readLine, hconveys.notBlank, Bool.false_eq_true, if_false,
    hconveys.reads]

/-- The terminal of a client reads all lines that came. -/
theorem takeLines_frames {texts : List String} (h : ∀ text ∈ texts, Wire.IsOneLine text)
    (isOpen : Bool) {fuel : Nat} (hfuel : texts.length ≤ fuel) :
    Client.Terminal.takeLines fuel { bytes := texts.flatMap Wire.frame, isOpen } =
      (texts, { bytes := [], isOpen }) := by
  induction texts generalizing fuel with
  | nil => cases fuel <;> cases isOpen <;> rfl
  | cons text rest ih =>
    obtain ⟨fuel, rfl⟩ : ∃ n, fuel = n + 1 := by
      rw [List.length_cons] at hfuel
      exact ⟨fuel - 1, by omega⟩
    have hrest := ih (fun other hother => h other (List.mem_cons_of_mem _ hother))
      (Nat.le_of_succ_le_succ hfuel)
    rw [List.flatMap_cons, Client.Terminal.takeLines,
      Wire.next_frame (h text List.mem_cons_self)]
    dsimp only
    rw [hrest]

/-- Every message has one byte at least. -/
theorem length_le_flatMap_frame (texts : List String) :
    texts.length ≤ (texts.flatMap Wire.frame).length := by
  induction texts with
  | nil => exact Nat.le_refl _
  | cons text rest ih =>
    rw [List.flatMap_cons, List.length_append, List.length_cons, Wire.frame, List.length_append,
      List.length_singleton]
    omega

/-- A client takes the events from their bytes. -/
theorem takeEvents_eventBytes {terminal : Client.Terminal} {events : List Event}
    (h : ∀ event ∈ events, event.ReadsBack)
    (hbytes : terminal.incoming.bytes = eventBytes events) : terminal.takeEvents.1 = events := by
  let texts := events.map Wire.Connection.eventLine
  have hone : ∀ text ∈ texts, Wire.IsOneLine text := by
    intro text htext
    obtain ⟨event, hevent, rfl⟩ := List.mem_map.1 htext
    exact (conveys_event (h event hevent)).oneLine
  have hframes : terminal.incoming.bytes = texts.flatMap Wire.frame := by
    rw [hbytes, List.flatMap_map]
    rfl
  have htake := takeLines_frames hone terminal.incoming.isOpen (length_le_flatMap_frame texts)
  rw [← hframes] at htake
  show (Client.Terminal.takeLines _ terminal.incoming).1.filterMap Event.ofLine? = events
  rw [show Client.Terminal.takeLines _ terminal.incoming = _ from htake]
  have hread := (readLines_conveyed fun event hevent => conveys_event (h event hevent)).2
  simpa [List.filterMap_map, texts] using congrArg (List.filterMap id) hread

/-- What is added to a journal are the lines of the entries. -/
theorem bytesOf_addTo (contents : String) (entries : List Journal.Entry) :
    Wire.bytesOf (Journal.addTo contents entries) =
      Wire.bytesOf contents ++ entries.flatMap fun entry => Wire.frame entry.line := by
  induction entries generalizing contents with
  | nil => simp [Journal.addTo]
  | cons entry rest ih =>
    have hnewline : Wire.bytesOf (contents ++ entry.line ++ "\n") =
        Wire.bytesOf contents ++ Wire.frame entry.line := by
      simp only [Wire.frame, Wire.bytesOf_eq, String.toList_append, List.flatMap_append,
        List.append_assoc]
      rfl
    show Wire.bytesOf (Journal.addTo (contents ++ entry.line ++ "\n") rest) = _
    rw [ih, hnewline, List.flatMap_cons, List.append_assoc]

/-! ## Every list of messages -/

/-- What becomes of some messages of each type. -/
structure Wire.Conveyed (commands : List Command) (events : List Event)
    (entries : List Journal.Entry) : Prop where
  /-- The lines of the commands are those that were written, none is blank, and each one decodes
  to its command. -/
  commandLines : Wire.readLines (commandBytes commands) = commands.map (·.toJson.write)
  noBlank : ∀ line ∈ Wire.readLines (commandBytes commands), Text.isBlankText line = false
  decoded : (Wire.readLines (commandBytes commands)).map Wire.decodeLine = commands.map .ok
  /-- The reader of a connection takes them up one after the other and rejects none. -/
  taken : ∀ (connection : Wire.Connection) (before : List Command) (command : Command)
    (after : List Command), commands = before ++ command :: after →
    connection.reader = .reading → connection.session.isEnded = false →
    connection.incoming.bytes = commandBytes (command :: after) →
    connection.readerStep = some { connection with
      incoming := { connection.incoming with bytes := commandBytes after }
      reader := .forwarding command }
  /-- So are the lines of the events, and the terminal of a client passes over none. -/
  eventLines : Wire.readLines (eventBytes events) = events.map Wire.Connection.eventLine
  understood : (Wire.readLines (eventBytes events)).map Event.ofLine? = events.map some
  received : ∀ terminal : Client.Terminal, terminal.incoming.bytes = eventBytes events →
    terminal.takeEvents.1 = events
  /-- And the lines of a journal. -/
  entryLines : Wire.readLines (Wire.bytesOf (Journal.addTo "" entries)) =
    entries.map Journal.Entry.line
  restored : (Wire.readLines (Wire.bytesOf (Journal.addTo "" entries))).map
    (fun line => readLenient? line >>= Journal.Entry.ofJson?) = entries.map some

/-- Whatever texts they hold, messages come back as they were: the lines are those that were
written, and each one is read as its message. -/
theorem Wire.conveyed (commands : List Command) (events : List Event)
    (entries : List Journal.Entry) (hcommands : ∀ command ∈ commands, command.ReadsBack)
    (hevents : ∀ event ∈ events, event.ReadsBack) (hentries : ∀ entry ∈ entries, entry.ReadsBack) :
    Wire.Conveyed commands events entries := by
  obtain ⟨hcommandLines, hcommandsRead⟩ :=
    readLines_conveyed fun command hcommand => conveys_command (hcommands command hcommand)
  obtain ⟨heventLines, heventsRead⟩ :=
    readLines_conveyed fun event hevent => conveys_event (hevents event hevent)
  obtain ⟨hentryLines, hentriesRead⟩ :=
    readLines_conveyed fun entry hentry => conveys_entry (hentries entry hentry)
  have hjournal : Wire.bytesOf (Journal.addTo "" entries) =
      entries.flatMap fun entry => Wire.frame entry.line := by
    rw [bytesOf_addTo]
    rfl
  exact {
    commandLines := hcommandLines
    noBlank := by
      intro line hline
      rw [commandBytes, hcommandLines] at hline
      obtain ⟨command, hcommand, rfl⟩ := List.mem_map.1 hline
      exact (conveys_command (hcommands command hcommand)).notBlank
    decoded := by
      rw [commandBytes, hcommandLines]
      exact hcommandsRead
    taken := by
      intro connection before command after hsplit hreading hrunning hbytes
      have hmem : command ∈ commands := by
        rw [hsplit]
        exact List.mem_append_right _ List.mem_cons_self
      exact readerStep_command (hcommands command hmem) hreading hrunning hbytes
    eventLines := heventLines
    understood := by
      rw [eventBytes]
      exact (congrArg _ heventLines).trans heventsRead
    received := fun terminal => takeEvents_eventBytes hevents
    entryLines := by
      rw [hjournal]
      exact hentryLines
    restored := by
      rw [hjournal, hentryLines]
      exact hentriesRead }

/-- Quotes, backslashes, line breaks and characters beyond ASCII come back, and so do a zero that is
negative and the least index. -/
theorem Wire.conveyed_escapes :
    (∀ command ∈ [Command.mk .buy "a\"\\" "µ\n" ["", "\x00\r"] 1e300], command.ReadsBack) ∧
    (∀ event ∈ [Event.mk .fill "a" "" "\t" (some (-9223372036854775808)) 1.5 (-0.0) none "buy"
      (some "\u2028")], event.ReadsBack) ∧
    (∀ entry ∈ [Journal.Entry.note "🦀"], entry.ReadsBack) ∧
    Wire.Conveyed [.mk .buy "a\"\\" "µ\n" ["", "\x00\r"] 1e300]
      [.mk .fill "a" "" "\t" (some (-9223372036854775808)) 1.5 (-0.0) none "buy" (some "\u2028")]
      [.note "🦀"] := by
  have hcommands : ∀ command ∈ [Command.mk .buy "a\"\\" "µ\n" ["", "\x00\r"] 1e300],
      command.ReadsBack := by
    intro command hcommand
    rw [List.mem_singleton.1 hcommand]
    show Json.ReadsBack 1e300
    decide +kernel
  have hevents : ∀ event ∈ [Event.mk .fill "a" "" "\t" (some (-9223372036854775808)) 1.5 (-0.0) none
      "buy" (some "\u2028")], event.ReadsBack := by
    intro event hevent
    rw [List.mem_singleton.1 hevent]
    refine ⟨?_, ?_, ?_⟩
    · show Json.ReadsBack 1.5
      decide +kernel
    · show Json.ReadsBack (-0.0)
      decide +kernel
    · intro i hi
      cases hi
      exact ⟨by decide, by decide⟩
  have hentries : ∀ entry ∈ [Journal.Entry.note "🦀"], entry.ReadsBack := by
    intro entry hentry
    rw [List.mem_singleton.1 hentry]
    trivial
  exact ⟨hcommands, hevents, hentries, Wire.conveyed _ _ _ hcommands hevents hentries⟩

end TriggerDesk
