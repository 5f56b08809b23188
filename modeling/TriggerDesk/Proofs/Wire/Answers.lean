import TriggerDesk.Proofs.Wire.Connections

/-!
# One answer to every line

Every line that a client sends before the first one that is not valid UTF-8, and that is not blank,
has one answer: the event that rejects it, or the one with which the desk answers the command that
it is (`Responds`). An answer is on its way or has yet to come; no line has two, and blank lines
have none (`exists_outcomes`). When the session is over every line has its answer
(`exists_exchanges`).

`Reading` ties the lines that the reader has read to the bytes that were sent, and `Account` ties
them to the events that were put. Every move keeps both.
-/

namespace TriggerDesk

open Market TriggerDesk.Order Feed

namespace Wire

variable {line : String} {event : Event}

/-- The lines that ask for an answer: those before the first one that is not valid UTF-8, without
those that are blank. -/
def asking (bytes : List UInt8) : List String :=
  (((allLines bytes).takeWhile isReadable).filterMap textOf?).filter fun text =>
    !Text.isBlankText text

/-- The lines that ask for an answer are those that are read and are not blank. -/
theorem asking_eq (bytes : List UInt8) :
    asking bytes = (readLines bytes).filter fun text => !Text.isBlankText text :=
  (congrArg (List.filter _) (readLines_eq_filterMap bytes)).symm

/-- What answers a line. -/
inductive Responds (line : String) (event : Event) : Prop where
  | carryOut (command : Command) :
      decodeLine line = .ok command → command.IsAnsweredBy event → Responds line event
  | refuse : decodeLine line = .error event → Responds line event

/-- The command that a line is. -/
def commandOf? (line : String) : Option Command := (decodeLine line).toOption

/-- The rejection of a line that is no command. -/
def rejectionOf? (line : String) : Option Event :=
  match decodeLine line with
  | .ok _ => none
  | .error event => some event

/-- A line is a command, or there is a rejection of it. -/
theorem decoded_of_ok {command : Command} (h : decodeLine line = .ok command) :
    commandOf? line = some command ∧ rejectionOf? line = none := by
  rw [commandOf?, rejectionOf?, h]
  exact ⟨rfl, rfl⟩

/-- A line that cannot be decoded is rejected, and is no command. -/
theorem decoded_of_error (h : decodeLine line = .error event) :
    commandOf? line = none ∧ rejectionOf? line = some event := by
  rw [commandOf?, rejectionOf?, h]
  exact ⟨rfl, rfl⟩

/-- A line that is rejected cannot be decoded. -/
theorem decodeLine_of_rejectionOf? (h : rejectionOf? line = some event) :
    decodeLine line = .error event := by
  unfold rejectionOf? at h
  split at h
  · cases h
  · next found hdecode =>
    cases h
    exact hdecode

/-- A rejection is an answer. -/
theorem isResponse_of_rejectionOf? (h : rejectionOf? line = some event) :
    event.isResponse = true := by
  have hdecode := decodeLine_of_rejectionOf? h
  unfold decodeLine at hdecode
  split at hdecode
  · cases hdecode
    rfl
  · split at hdecode
    · cases hdecode
      rfl
    · split at hdecode <;> cases hdecode
      rfl

/-- The rejection that a reader holds. -/
def Reader.event? : Reader → Option Event
  | refusing event => some event
  | reading | forwarding _ | ended => none

/-- The command that a reader holds. -/
def Reader.command? : Reader → Option Command
  | forwarding command => some command
  | reading | refusing _ | ended => none

namespace Connection

variable {connection next : Connection} {actor : Actor} {move : Move} {moves : List Move}
  {lines : List String} {refused : List Event} {commands : List Command}
  {answered hand : List (Command × Event)}

/-! ## What is read -/

/-- The lines that the reader will find if some more bytes come. -/
def unread (connection : Connection) (more : List UInt8) : List String :=
  if connection.reader = .ended then [] else asking (connection.incoming.bytes ++ more)

/-- After some moves the reader has read these lines of all that were sent, however it goes on. -/
structure Reading (moves : List Move) (connection : Connection) (lines : List String) : Prop where
  split : ∀ more, (.closeWriting ∈ moves → more = []) →
    asking (sent moves ++ more) = lines ++ connection.unread more
  isOpen : connection.reader ≠ .ended →
    (connection.incoming.isOpen = true ↔ .closeWriting ∉ moves)

/-- When a connection starts, no line has come. -/
theorem reading_start (source : Source) (limit : Option Nat) :
    Reading [] (start source limit) [] :=
  ⟨fun _ _ => rfl, fun _ => ⟨fun _ => nofun, fun _ => rfl⟩⟩

/-- A move sends nothing. -/
theorem Reading.rest (h : Reading moves connection lines) (hbytes : move.bytes = [])
    (hmove : move ≠ .closeWriting) : Reading (moves ++ [move]) connection lines := by
  have hmem : Move.closeWriting ∈ moves ++ [move] ↔ Move.closeWriting ∈ moves := by
    rw [List.mem_append, List.mem_singleton, or_iff_left (Ne.symm hmove)]
  have hsent : sent (moves ++ [move]) = sent moves := by
    rw [sent_concat, hbytes, List.append_nil, ite_self]
  exact ⟨fun more hmore => hsent ▸ h.split more (hmore ∘ hmem.2), by
    rw [hmem]
    exact h.isOpen⟩

/-- No bytes come any more when none can. -/
theorem Reading.eq_nil_of_closed (h : Reading moves connection lines)
    (hreader : connection.reader ≠ .ended) {more : List UInt8}
    (hmore : .closeWriting ∈ moves → more = []) (hclosed : connection.incoming.isOpen = false) :
    more = [] := by
  refine hmore ?_
  by_contra hopen
  rw [(h.isOpen hreader).2 hopen] at hclosed
  cases hclosed

/-- Nothing is read. -/
theorem Reading.of_same (h : Reading moves connection lines)
    (hincoming : next.incoming = connection.incoming)
    (hreader : next.reader = .ended ↔ connection.reader = .ended) :
    Reading moves next lines where
  split more hmore := by
    rw [h.split more hmore, unread, unread, hincoming]
    simp only [hreader]
  isOpen hrunning := hincoming ▸ h.isOpen (mt hreader.2 hrunning)

/-- The reader has read a line. -/
theorem Reading.of_line (h : Reading moves connection lines) {text : String} {rest : Lines}
    (hreader : connection.reader ≠ .ended) (hline : connection.incoming.next = .line text rest)
    (hincoming : next.incoming = rest) (hrunning : next.reader ≠ .ended) :
    Reading moves next (lines ++ if Text.isBlankText text then [] else [text]) where
  split more hmore := by
    have hend := h.eq_nil_of_closed hreader hmore
    rw [h.split more hmore, unread, unread, if_neg hreader, if_neg hrunning, hincoming, asking_eq,
      asking_eq, Lines.readLines_of_line hline hend, List.append_assoc, List.filter_cons]
    cases Text.isBlankText text <;> rfl
  isOpen _ := by
    rw [hincoming, (Lines.length_lt_of_line hline).2]
    exact h.isOpen hreader

/-- The reader finds no more lines, and never will. -/
theorem Reading.stop (h : Reading moves connection lines) (hreader : connection.reader ≠ .ended)
    (hnext : connection.incoming.next = .ended ∨ connection.incoming.next = .unreadable)
    (hended : next.reader = .ended) : Reading moves next lines where
  split more hmore := by
    have hend := h.eq_nil_of_closed hreader hmore
    have hnone : asking (connection.incoming.bytes ++ more) = [] := by
      rw [asking_eq]
      rcases hnext with hnext | hnext
      · obtain ⟨hbytes, hclosed⟩ := Lines.of_ended hnext
        rw [hbytes, hend hclosed, List.append_nil,
          readLines_of_none (show splitLine? [] = none from rfl)]
        rfl
      · rw [Lines.readLines_of_unreadable hnext hend]
        rfl
    rw [h.split more hmore, unread, unread, if_neg hreader, if_pos hended, hnone]
  isOpen hrunning := absurd hended hrunning

/-- Writing bytes changes only what comes in. -/
theorem write_eq (connection : Connection) (bytes : List UInt8) :
    (connection.write bytes).2 =
      { connection with incoming := (connection.write bytes).2.incoming } := by
  unfold Connection.write
  split <;> rfl

/-- Writing bytes leaves the reader as it is. -/
theorem reader_write (connection : Connection) (bytes : List UInt8) :
    (connection.write bytes).2.reader = connection.reader := by
  rw [write_eq]

/-- Bytes that are written come in behind the others, unless the client has closed its side. -/
theorem incoming_write (hreader : connection.reader ≠ .ended) (bytes : List UInt8) :
    (connection.write bytes).2.incoming =
      if connection.incoming.isOpen then connection.incoming.append bytes
      else connection.incoming := by
  unfold Connection.write
  rw [decide_eq_false hreader, Bool.false_or]
  cases hopen : connection.incoming.isOpen with
  | true => rfl
  | false =>
    rw [Bool.not_false, if_pos rfl, if_neg Bool.false_ne_true, ← hopen]

/-- Bytes that are sent come behind those that the reader has not read. -/
theorem Reading.write (h : Reading moves connection lines) (bytes : List UInt8) :
    Reading (moves ++ [.write bytes]) (connection.write bytes).2 lines := by
  have hmem : Move.closeWriting ∈ moves ++ [.write bytes] ↔ Move.closeWriting ∈ moves := by simp
  refine ⟨fun more hmore => ?_, fun hrunning => ?_⟩
  · have hall : asking (sent (moves ++ [.write bytes]) ++ more) = lines ++
        connection.unread ((if Move.closeWriting ∈ moves then [] else bytes) ++ more) := by
      rw [sent_concat]
      split
      · exact h.split more (hmore ∘ hmem.2)
      · next hopen =>
        rw [List.append_assoc]
        exact h.split _ fun hclosed => absurd hclosed hopen
    rw [hall, unread, unread, reader_write]
    split
    · rfl
    · next hrunning =>
      rw [incoming_write hrunning]
      by_cases hclosed : Move.closeWriting ∈ moves
      · rw [if_pos hclosed, if_neg fun hopen => (h.isOpen hrunning).1 hopen hclosed]
        rfl
      · rw [if_neg hclosed, if_pos ((h.isOpen hrunning).2 hclosed), ← List.append_assoc]
        rfl
  · rw [reader_write] at hrunning
    rw [hmem, ← h.isOpen hrunning, incoming_write hrunning]
    split <;> rfl

/-- The client that closes its side takes back no line. -/
theorem Reading.closeWriting (h : Reading moves connection lines) :
    Reading (moves ++ [.closeWriting]) connection.closeWriting lines where
  split more hmore := by
    have hnone : more = [] := hmore (List.mem_append_right _ (List.mem_singleton_self _))
    have hsent : sent (moves ++ [.closeWriting]) = sent moves := by
      rw [sent_concat, Move.bytes, List.append_nil, ite_self]
    subst hnone
    rw [hsent, h.split [] fun _ => rfl]
    rfl
  isOpen _ := by simp [Connection.closeWriting]

/-! ## What is answered -/

/-- The lines that were read are those that were rejected or whose command went to the desk, and the
one that the reader holds; and the answers among the events are the rejections and what the desk
answered. -/
structure Account (connection : Connection) (lines : List String) (refused : List Event)
    (commands : List Command) (answered hand : List (Command × Event)) : Prop where
  rejected : lines.filterMap rejectionOf? = refused ++ connection.reader.event?.toList
  forwarded : lines.filterMap commandOf? = commands ++ connection.reader.command?.toList
  replies : connection.session.Replies commands answered hand
  responses : connection.session.responses.Perm (refused ++ answered.map Prod.snd)
  taken : connection.session.outbox.taken ≤ connection.session.outbox.events.length
  written : connection.outgoing =
    (connection.session.outbox.events.take connection.session.outbox.taken).map eventLine

/-- When a connection starts, no line is read and nothing is answered. -/
theorem account_start (source : Source) (limit : Option Nat) :
    Account (start source limit) [] [] [] [] [] where
  rejected := rfl
  forwarded := rfl
  replies := Session.replies_start _ _ _ _
  responses := .rfl
  taken := Nat.le_refl 0
  written := rfl

section Account

variable (h : Account connection lines refused commands answered hand)
include h

/-- The desk answers some commands. -/
theorem Account.answer {given hand' : List (Command × Event)}
    (hreader : next.reader = connection.reader) (houtgoing : next.outgoing = connection.outgoing)
    (hreplies : next.session.Replies commands (answered ++ given) hand')
    (hresponses : next.session.responses = connection.session.responses ++ given.map Prod.snd)
    (hevents : connection.session.outbox.events <+: next.session.outbox.events)
    (htaken : next.session.outbox.taken = connection.session.outbox.taken) :
    Account next lines refused commands (answered ++ given) hand' where
  rejected := hreader ▸ h.rejected
  forwarded := hreader ▸ h.forwarded
  replies := hreplies
  responses := by
    rw [hresponses, List.map_append, ← List.append_assoc]
    exact h.responses.append_right _
  taken := htaken ▸ Nat.le_trans h.taken hevents.length_le
  written := by
    obtain ⟨more, hmore⟩ := hevents
    rw [houtgoing, htaken, ← hmore, List.take_append_of_le_length h.taken]
    exact h.written

/-- The desk answers nothing. -/
theorem Account.of_same (hreader : next.reader = connection.reader)
    (houtgoing : next.outgoing = connection.outgoing)
    (hreplies : next.session.Replies commands answered hand)
    (hevents : next.session.outbox.events = connection.session.outbox.events)
    (htaken : next.session.outbox.taken = connection.session.outbox.taken) :
    Account next lines refused commands answered hand := by
  have hnothing : next.session.Replies commands (answered ++ []) hand :=
    (List.append_nil answered).symm ▸ hreplies
  have hsame := h.answer hreader houtgoing hnothing (by
    rw [Session.responses_of_same hevents, List.map_nil, List.append_nil])
    (hevents ▸ List.prefix_rfl) htaken
  rwa [List.append_nil] at hsame

/-- A turn of the writer changes no account. -/
theorem Account.writes (hwrites : Writes connection next) :
    Account next lines refused commands answered hand := by
  obtain ⟨event, outbox, htake, rfl⟩ := hwrites
  obtain ⟨hevent, hevents, htaken, _⟩ := Outbox.take?_eq_some htake
  exact {
    rejected := h.rejected
    forwarded := h.forwarded
    replies := h.replies.of_same rfl rfl
    responses := by
      rw [Session.responses_of_same hevents]
      exact h.responses
    taken := by
      show outbox.taken ≤ outbox.events.length
      rw [htaken, hevents]
      exact (List.getElem?_eq_some_iff.1 hevent).1
    written := by
      show connection.outgoing ++ [eventLine event] = (outbox.events.take outbox.taken).map _
      rw [htaken, hevents, List.take_add_one, hevent, List.map_append, h.written]
      rfl }

/-- The desk or a watcher takes a turn. -/
theorem Account.of_step (hserving : connection.IsServing) {actor : Session.Actor} {after : Session}
    (hstep : Session.step actor connection.session = some after) (hopen : after.IsOpen) :
    ∃ given hand',
      Account (connection.withSession after) lines refused commands (answered ++ given) hand' := by
  obtain ⟨given, hand', hreplies, hresponses⟩ :=
    h.replies.of_step hserving.regular hstep hopen
  exact ⟨given, hand', h.answer rfl rfl hreplies hresponses
    ⟨_, (Session.events_of_step hstep hopen).symm⟩ (Session.taken_of_step hstep hopen)⟩

/-- The session ends for want of commands. -/
theorem Account.finish (hidle : connection.session.desk = .idle)
    (hended : connection.session.inbox.isEnded = true) :
    Account (connection.withSession connection.session.shutDown) lines refused commands answered
      hand := by
  obtain ⟨hevents, htaken⟩ := Session.events_shutDown connection.session
  exact h.of_same rfl rfl (h.replies.shutDown hidle hended) hevents htaken

/-- The reader reads a line, and holds what it is. -/
theorem Account.read {found : List String}
    (hreader : connection.reader = .reading) (houtgoing : next.outgoing = connection.outgoing)
    (hevent : found.filterMap rejectionOf? = next.reader.event?.toList)
    (hcommand : found.filterMap commandOf? = next.reader.command?.toList)
    (hdocket : next.session.docket = connection.session.docket)
    (hdesk : next.session.desk = connection.session.desk)
    (hevents : next.session.outbox.events = connection.session.outbox.events)
    (htaken : next.session.outbox.taken = connection.session.outbox.taken) :
    Account next (lines ++ found) refused commands answered hand where
  rejected := by
    rw [List.filterMap_append, h.rejected, hreader, hevent]
    exact congrArg (· ++ _) (List.append_nil _)
  forwarded := by
    rw [List.filterMap_append, h.forwarded, hreader, hcommand]
    exact congrArg (· ++ _) (List.append_nil _)
  replies := h.replies.of_same hdocket (congrArg Desk.answer? hdesk)
  responses := Session.responses_of_same hevents ▸ h.responses
  taken := by
    rw [htaken, hevents]
    exact h.taken
  written := by
    rw [houtgoing, htaken, hevents]
    exact h.written

/-- A command goes to the desk. -/
theorem Account.forward {command : Command} {inbox : Channel Command}
    (hreader : connection.reader = .forwarding command)
    (hsend : connection.session.inbox.send command = .ok inbox) :
    Account { connection with
      session := { connection.session with inbox }, reader := .reading } lines refused
      (commands ++ [command]) answered hand := by
  have hrejected := h.rejected
  have hforwarded := h.forwarded
  rw [hreader] at hrejected hforwarded
  refine ⟨hrejected, ?_, ?_, h.responses, h.taken, h.written⟩
  · rw [hforwarded]
    exact (List.append_nil _).symm
  · refine h.replies.send ?_ rfl
    rw [Session.docket, Session.docket, Channel.items_of_send hsend, List.append_assoc]

/-- A rejection is put. -/
theorem Account.put {event : Event} (hreader : connection.reader = .refusing event) :
    Account { connection with
      session := connection.session.put .reader event, reader := .reading } lines
      (refused ++ [event]) commands answered hand := by
  have hrejected := h.rejected
  have hforwarded := h.forwarded
  rw [hreader] at hrejected hforwarded
  refine ⟨?_, hforwarded, h.replies.of_same rfl rfl, ?_, ?_, ?_⟩
  · rw [hrejected]
    exact (List.append_nil _).symm
  · have hmem : event ∈ lines.filterMap rejectionOf? := by
      rw [hrejected]
      exact List.mem_append_right _ (List.mem_singleton_self event)
    obtain ⟨line, _, hline⟩ := List.mem_filterMap.1 hmem
    show (List.filter _ (connection.session.outbox.events ++ [event])).Perm _
    rw [List.filter_append, List.filter_cons, if_pos (isResponse_of_rejectionOf? hline),
      List.append_assoc, List.singleton_append]
    exact (List.perm_append_singleton event _).trans
      ((h.responses.cons event).trans List.perm_middle.symm)
  · show _ ≤ (connection.session.outbox.events ++ [event]).length
    rw [List.length_append]
    exact Nat.le_add_right_of_le h.taken
  · rw [h.written, ← List.take_append_of_le_length h.taken]
    rfl

/-- The reader ends. -/
theorem Account.stop (hreader : connection.reader = .reading) :
    Account connection.endReading lines refused commands answered hand := by
  have hrejected := h.rejected
  have hforwarded := h.forwarded
  rw [hreader] at hrejected hforwarded
  have hevents : connection.endReading.session.outbox.events = connection.session.outbox.events :=
    Outbox.events_withdraw _ _
  have htaken : connection.endReading.session.outbox.taken = connection.session.outbox.taken :=
    Outbox.taken_withdraw _ _
  refine ⟨hrejected, hforwarded, h.replies.of_same rfl rfl, ?_, ?_, ?_⟩
  · rw [Session.responses_of_same hevents]
    exact h.responses
  · rw [hevents, htaken]
    exact h.taken
  · rw [hevents, htaken]
    exact h.written

end Account

/-! ## The reader -/

/-- After some moves the lines that were read, what was rejected and what was answered are in
agreement. -/
def Agrees (moves : List Move) (connection : Connection) : Prop :=
  ∃ lines refused commands answered hand,
    Reading moves connection lines ∧ Account connection lines refused commands answered hand

/-- A turn of the reader keeps the lines and the answers in agreement. -/
theorem Reading.agrees_of_readerTurn (hreading : Reading moves connection lines)
    (h : Account connection lines refused commands answered hand)
    (hturn : ReaderTurn connection next) : Agrees moves next := by
  have hfound : ∀ {text rest}, connection.reader = .reading →
      connection.incoming.next = .line text rest → next.incoming = rest → next.reader ≠ .ended →
      Reading moves next (lines ++ if Text.isBlankText text then [] else [text]) :=
    fun hreader hline => hreading.of_line (hreader ▸ nofun) hline
  have hkept : connection.reader ≠ .ended → next.incoming = connection.incoming →
      next.reader ≠ .ended → Reading moves next lines :=
    fun hreader hincoming hnext =>
      hreading.of_same hincoming ⟨fun hended => absurd hended hnext, fun hended =>
        absurd hended hreader⟩
  cases hturn with
  | skip text rest hreader hline hblank hnext =>
    subst hnext
    have hread := hfound hreader hline rfl (hreader ▸ nofun)
    rw [hblank, if_pos rfl] at hread
    exact ⟨_, _, _, _, _, hread, h.read hreader rfl (by rw [hreader]; rfl) (by rw [hreader]; rfl)
      rfl rfl rfl rfl⟩
  | take text rest command hreader hline hblank hdecode hnext =>
    subst hnext
    have hread := hfound hreader hline rfl nofun
    rw [hblank, if_neg Bool.false_ne_true] at hread
    obtain ⟨hcommand, hevent⟩ := decoded_of_ok hdecode
    exact ⟨_, _, _, _, _, hread, h.read hreader rfl (by simp [hevent, Reader.event?])
      (by simp [hcommand, Reader.command?]) rfl rfl rfl rfl⟩
  | refuse text rest event hreader hline hblank hdecode hnext =>
    subst hnext
    have hread := hfound hreader hline rfl nofun
    rw [hblank, if_neg Bool.false_ne_true] at hread
    obtain ⟨hcommand, hevent⟩ := decoded_of_error hdecode
    exact ⟨_, _, _, _, _, hread, h.read hreader rfl (by simp [hevent, Reader.event?])
      (by simp [hcommand, Reader.command?]) rfl rfl (Outbox.events_request _ _)
      (Outbox.taken_request _ _)⟩
  | forward command inbox hreader hsend hnext =>
    subst hnext
    exact ⟨_, _, _, _, _, hkept (hreader ▸ nofun) rfl nofun, h.forward hreader hsend⟩
  | put event hreader _ hnext =>
    subst hnext
    exact ⟨_, _, _, _, _, hkept (hreader ▸ nofun) rfl nofun, h.put hreader⟩
  | stop hreader hend hnext =>
    subst hnext
    exact ⟨_, _, _, _, _, hreading.stop (hreader ▸ nofun) hend rfl, h.stop hreader⟩

/-! ## Runs -/

/-- When a connection starts, there are no lines and no answers. -/
theorem agrees_start (source : Source) (limit : Option Nat) : Agrees [] (start source limit) :=
  ⟨_, _, _, _, _, reading_start source limit, account_start source limit⟩

/-- Every move keeps lines and answers in agreement. -/
theorem Agrees.advance (h : Agrees moves connection)
    (hserving : connection.IsServing ∨ connection.IsOver) (move : Move) :
    Agrees (moves ++ [move]) (connection.advance move) := by
  obtain ⟨lines, refused, commands, answered, hand, hreading, haccount⟩ := h
  have hworld : ∀ {source clock incoming},
      Reading (moves ++ [move]) { connection with
        session := { connection.session with source, clock }, incoming } lines →
      Agrees (moves ++ [move]) { connection with
        session := { connection.session with source, clock }, incoming } :=
    fun hread => ⟨_, _, _, _, _, hread,
      haccount.of_same rfl rfl (haccount.replies.of_same rfl rfl) rfl rfl⟩
  have hwrites : ∀ {next}, Writes connection next → Reading (moves ++ [move]) connection lines →
      Agrees (moves ++ [move]) next := by
    rintro next hwrites hrest
    refine ⟨_, _, _, _, _, ?_, haccount.writes hwrites⟩
    obtain ⟨event, outbox, _, rfl⟩ := hwrites
    exact hrest.of_same rfl Iff.rfl
  cases move with
  | turn actor =>
    have hrest : Reading (moves ++ [.turn actor]) connection lines := hreading.rest rfl (by simp)
    cases hstep : step actor connection with
    | none =>
      rw [advance_turn_of_waits hstep]
      exact ⟨_, _, _, _, _, hrest, haccount⟩
    | some next =>
      rw [advance_turn hstep]
      rcases hserving with hserving | hover
      · cases hserving.turn_of_step hstep with
        | session actor after hafter hopen hnext =>
          obtain ⟨given, hand', hafter⟩ := haccount.of_step hserving hafter hopen
          exact hnext ▸ ⟨_, _, _, _, _, hrest.of_same rfl Iff.rfl, hafter⟩
        | finish hidle hended hnext =>
          exact hnext ▸ ⟨_, _, _, _, _, hrest.of_same rfl Iff.rfl, haccount.finish hidle hended⟩
        | reader hturn => exact hrest.agrees_of_readerTurn haccount hturn
        | writer hnext => exact hwrites hnext hrest
      · exact hwrites (hover.writes_of_step hstep) hrest
  | write bytes =>
    have hread := hreading.write bytes
    rw [write_eq] at hread
    rw [Connection.advance, write_eq]
    exact hworld hread
  | closeWriting => exact hworld hreading.closeWriting
  | feeds source =>
    have hrest : Reading (moves ++ [.feeds source]) connection lines :=
      hreading.rest rfl (by simp)
    exact hworld (hrest.of_same rfl Iff.rfl)
  | wait milliseconds =>
    have hrest : Reading (moves ++ [.wait milliseconds]) connection lines :=
      hreading.rest rfl (by simp)
    exact hworld (hrest.of_same rfl Iff.rfl)

/-- A connection serves or is over after any run, with lines and answers in agreement. -/
theorem Agrees.run (h : Agrees moves connection)
    (hserving : connection.IsServing ∨ connection.IsOver) (more : List Move) :
    ((connection.run more).IsServing ∨ (connection.run more).IsOver) ∧
      Agrees (moves ++ more) (connection.run more) := by
  induction more generalizing moves connection with
  | nil => exact ⟨hserving, (List.append_nil moves).symm ▸ h⟩
  | cons move rest ih =>
    have hnext : (connection.advance move).IsServing ∨ (connection.advance move).IsOver := by
      rcases hserving with hserving | hover
      · exact hserving.advance move
      · exact .inr (hover.advance move)
    have hrest := ih (h.advance hserving move) hnext
    rwa [List.append_assoc] at hrest

/-- After any run a connection serves or is over, with the lines and the answers in agreement. -/
theorem agrees_run (source : Source) (limit : Option Nat) (moves : List Move) :
    (((start source limit).run moves).IsServing ∨ ((start source limit).run moves).IsOver) ∧
      Agrees moves ((start source limit).run moves) :=
  (agrees_start source limit).run (.inl (isServing_start source limit)) moves

/-! ## One answer to every line -/

/-- Lines, each with its answer if there is one, and these are the answers. -/
structure Matching (lines : List String) (responses : List Event)
    (outcomes : List (String × Option Event)) : Prop where
  lines : outcomes.map Prod.fst = lines
  answers : ∀ outcome ∈ outcomes, ∀ event, outcome.2 = some event → Responds outcome.1 event
  responses : responses.Perm (outcomes.filterMap Prod.snd)

/-- A line without an answer may come first. -/
theorem Matching.cons_none {responses : List Event} {outcomes : List (String × Option Event)}
    (h : Matching lines responses outcomes) (line : String) :
    Matching (line :: lines) responses ((line, none) :: outcomes) where
  lines := congrArg (line :: ·) h.lines
  answers outcome hmem event hevent := by
    rcases List.mem_cons.1 hmem with rfl | hmem
    · cases hevent
    · exact h.answers outcome hmem event hevent
  responses := h.responses

/-- An answer may come anywhere among the others. -/
theorem Matching.cons_some {before after : List Event} {outcomes : List (String × Option Event)}
    (h : Matching lines (before ++ after) outcomes) {line : String} {event : Event}
    (hresponds : Responds line event) :
    Matching (line :: lines) (before ++ event :: after) ((line, some event) :: outcomes) where
  lines := congrArg (line :: ·) h.lines
  answers outcome hmem other hother := by
    rcases List.mem_cons.1 hmem with rfl | hmem
    · cases hother
      exact hresponds
    · exact h.answers outcome hmem other hother
  responses := List.perm_middle.trans (h.responses.cons event)

/-- Lines without answers may come last. -/
theorem Matching.append_none {responses : List Event} {outcomes : List (String × Option Event)}
    (h : Matching lines responses outcomes) (more : List String) :
    Matching (lines ++ more) responses (outcomes ++ more.map (·, none)) where
  lines := by simp [h.lines, Function.comp_def]
  answers outcome hmem event hevent := by
    rcases List.mem_append.1 hmem with hmem | hmem
    · exact h.answers outcome hmem event hevent
    · obtain ⟨line, _, rfl⟩ := List.mem_map.1 hmem
      cases hevent
  responses := by simpa using h.responses

/-- Lines get their answers in order from what was rejected and from what was answered. All have one
when nothing has been left out. -/
theorem exists_matching {pending : List Event} {waiting : List Command}
    (hrejected : lines.filterMap rejectionOf? = refused ++ pending)
    (hforwarded : lines.filterMap commandOf? = answered.map Prod.fst ++ waiting)
    (hanswers : ∀ exchange ∈ answered, exchange.1.IsAnsweredBy exchange.2) :
    ∃ outcomes, Matching lines (refused ++ answered.map Prod.snd) outcomes ∧
      (pending = [] → waiting = [] → ∀ outcome ∈ outcomes, outcome.2.isSome = true) := by
  induction lines generalizing refused answered pending waiting with
  | nil =>
    obtain ⟨rfl, rfl⟩ := List.append_eq_nil_iff.1 hrejected.symm
    obtain ⟨hnone, rfl⟩ := List.append_eq_nil_iff.1 hforwarded.symm
    rw [List.map_eq_nil_iff] at hnone
    subst hnone
    exact ⟨[], ⟨rfl, fun _ hmem => (List.not_mem_nil hmem).elim, .rfl⟩,
      fun _ _ _ hmem => (List.not_mem_nil hmem).elim⟩
  | cons line rest ih =>
    cases hdecode : decodeLine line with
    | ok command =>
      obtain ⟨hcommand, hevent⟩ := decoded_of_ok hdecode
      rw [List.filterMap_cons_none hevent] at hrejected
      rw [List.filterMap_cons_some hcommand] at hforwarded
      -- The desk answers in order, so the first answer is that of the first line that is a command.
      cases answered with
      | nil =>
        cases waiting with
        | nil => cases hforwarded
        | cons first later =>
          obtain ⟨outcomes, hmatching, _⟩ :=
            @ih _ [] _ later hrejected (List.cons.inj hforwarded).2 hanswers
          exact ⟨_, hmatching.cons_none line, fun _ => nofun⟩
      | cons exchange others =>
        rw [List.map_cons, List.cons_append, List.cons.injEq] at hforwarded
        obtain ⟨outcomes, hmatching, hall⟩ :=
          ih hrejected hforwarded.2 fun other hother =>
            hanswers other (List.mem_cons_of_mem _ hother)
        have hanswer := hanswers exchange List.mem_cons_self
        rw [← hforwarded.1] at hanswer
        exact ⟨_, hmatching.cons_some (.carryOut command hdecode hanswer), fun hpending hwaiting =>
          List.forall_mem_cons.2 ⟨rfl, hall hpending hwaiting⟩⟩
    | error event =>
      obtain ⟨hcommand, hevent⟩ := decoded_of_error hdecode
      rw [List.filterMap_cons_some hevent] at hrejected
      rw [List.filterMap_cons_none hcommand] at hforwarded
      -- A rejection may come in front of answers to earlier lines: the answers are a permutation.
      cases refused with
      | nil =>
        cases pending with
        | nil => cases hrejected
        | cons first later =>
          obtain ⟨outcomes, hmatching, _⟩ :=
            @ih [] _ later _ (List.cons.inj hrejected).2 hforwarded hanswers
          exact ⟨_, hmatching.cons_none line, nofun⟩
      | cons first others =>
        rw [List.cons_append, List.cons.injEq] at hrejected
        obtain ⟨outcomes, hmatching, hall⟩ := ih hrejected.2 hforwarded hanswers
        have hresponds := @Matching.cons_some _ [] _ _ hmatching line event (.refuse hdecode)
        rw [hrejected.1] at hresponds
        exact ⟨_, hresponds, fun hpending hwaiting =>
          List.forall_mem_cons.2 ⟨rfl, hall hpending hwaiting⟩⟩

/-- Lines, each with its answer, and these are the answers. -/
structure Exchanges (lines : List String) (responses : List Event)
    (exchanges : List (String × Event)) : Prop where
  lines : exchanges.map Prod.fst = lines
  answers : ∀ exchange ∈ exchanges, Responds exchange.1 exchange.2
  responses : responses.Perm (exchanges.map Prod.snd)

/-- When no line is left out, every line has its answer. -/
theorem Matching.exists_exchanges {responses : List Event}
    {outcomes : List (String × Option Event)} (h : Matching lines responses outcomes)
    (hall : ∀ outcome ∈ outcomes, outcome.2.isSome = true) :
    ∃ exchanges, Exchanges lines responses exchanges := by
  obtain ⟨exchanges, rfl⟩ : ∃ exchanges : List (String × Event),
      outcomes = exchanges.map fun exchange => (exchange.1, some exchange.2) := by
    clear h
    induction outcomes with
    | nil => exact ⟨[], rfl⟩
    | cons outcome rest ih =>
      obtain ⟨exchanges, rfl⟩ := ih fun other hother => hall other (List.mem_cons_of_mem _ hother)
      obtain ⟨event, hevent⟩ := Option.isSome_iff_exists.1 (hall outcome List.mem_cons_self)
      exact ⟨(outcome.1, event) :: exchanges, by rw [List.map_cons, ← hevent]⟩
  refine ⟨exchanges, ?_, fun exchange hmem => ?_, ?_⟩
  · simpa [Function.comp_def] using h.lines
  · exact h.answers _ (List.mem_map_of_mem hmem) _ rfl
  · simpa [List.filterMap_map, Function.comp_def] using h.responses

/-- After any run every line that asks for an answer has one at most, and nothing else has any. When
the session is over, every such line has its answer. -/
theorem exists_outcomes (source : Source) (limit : Option Nat) (moves : List Move) :
    ∃ outcomes,
      Matching (asking (sent moves)) ((start source limit).run moves).session.responses outcomes ∧
      (((start source limit).run moves).session.isEnded = true →
        ∀ outcome ∈ outcomes, outcome.2.isSome = true) := by
  obtain ⟨hserving, lines, refused, commands, answered, hand, hreading, haccount⟩ :=
    agrees_run source limit moves
  have hforwarded := haccount.forwarded
  rw [haccount.replies.come, List.map_append, List.append_assoc, List.append_assoc] at hforwarded
  obtain ⟨outcomes, hmatching, hall⟩ := exists_matching haccount.rejected hforwarded
    fun exchange hmem => haccount.replies.answers exchange (List.mem_append_left _ hmem)
  have hlines := hreading.split [] fun _ => rfl
  rw [List.append_nil] at hlines
  have hmore := hmatching.append_none (((start source limit).run moves).unread [])
  rw [← hlines] at hmore
  refine ⟨_, { hmore with responses := haccount.responses.trans hmore.responses }, ?_⟩
  intro hended
  rcases hserving with hserving | hover
  · rw [hserving.not_isEnded] at hended
    cases hended
  · have hnothing : ((start source limit).run moves).unread [] = [] := by
      rw [unread, if_pos hover.reader]
    have hhand := haccount.replies.hand_eq_nil (by rw [hover.desk]; rfl)
    rw [hnothing, List.map_nil, List.append_nil]
    refine hall ?_ ?_
    · rw [hover.reader]
      rfl
    · rw [hhand, Session.docket, hover.desk, hover.inbox, hover.reader]
      rfl

/-- When the session has ended, each line that asks for an answer has got one. -/
theorem exists_exchanges (source : Source) (limit : Option Nat) (moves : List Move)
    (hended : ((start source limit).run moves).session.isEnded = true) :
    ∃ exchanges, Exchanges (asking (sent moves))
      ((start source limit).run moves).session.responses exchanges := by
  obtain ⟨outcomes, hmatching, hall⟩ := exists_outcomes source limit moves
  exact hmatching.exists_exchanges (hall hended)

end Connection

end Wire

end TriggerDesk
