import TriggerDesk.Proofs.Json.Finite
import TriggerDesk.Proofs.Session.Finiteness
import TriggerDesk.Proofs.Wire.Connections
import TriggerDesk.Proofs.Wire.Prices

/-!
# Finite numbers on a connection

All commands of a connection come from lines, so their prices are finite, and with them all numbers
of the session (`Session.IsFinite`). That holds whatever bytes the client sends and whatever the
feeds deliver, also after the client has left and after the session has ended. So no event is
written with a price or a level that is `null`, and the client understands every line
(`Wire.Connection.finite_along`).
-/

namespace TriggerDesk

open Market TriggerDesk.Order Feed Json

namespace Wire.Connection

variable {connection next : Connection} {actor : Actor}

/-- What can happen to a connection. -/
inductive Happening where
  | move (move : Move)
  /-- The client takes no more lines. -/
  | leave
  deriving DecidableEq, Repr

/-- The connection after something has happened. -/
def after (connection : Connection) : Happening → Connection
  | .move move => connection.advance move
  | .leave => { connection with listening := false }

/-- All numbers of a connection are finite, and so were those of all lines that were written. -/
structure IsFinite (connection : Connection) : Prop where
  session : connection.session.IsFinite
  forwarding : ∀ command, connection.reader = .forwarding command → command.price.isFinite = true
  refusing : ∀ event, connection.reader = .refusing event → event.IsFinite
  lines : ∀ line ∈ connection.outgoing, ∃ event, event.IsFinite ∧ line = eventLine event

/-- A connection starts without any numbers. -/
theorem isFinite_start (source : Source) (limit : Option ℕ) : (start source limit).IsFinite where
  session := Session.isFinite_start _ _ _ _
  forwarding _ h := by cases h
  refusing _ h := by cases h
  lines _ h := by cases h

namespace IsFinite

/-- A reader that holds nothing. -/
theorem of_reader (h : connection.IsFinite) (hsession : next.session.IsFinite)
    (hreader : next.reader = .reading ∨ next.reader = .ended)
    (hlines : next.outgoing = connection.outgoing) : next.IsFinite where
  session := hsession
  forwarding command hforwarding := by
    rw [hforwarding] at hreader
    rcases hreader with hreader | hreader <;> cases hreader
  refusing event hrefusing := by
    rw [hrefusing] at hreader
    rcases hreader with hreader | hreader <;> cases hreader
  lines := hlines ▸ h.lines

/-- The end of reading leaves all numbers finite. -/
theorem endReading (h : connection.IsFinite) : connection.endReading.IsFinite := by
  refine h.of_reader (h.session.of_others rfl rfl rfl (fun _ => .inl) fun event hevent => ?_)
    (.inr rfl) rfl
  exact .inl ((Outbox.events_withdraw _ _) ▸ hevent)

/-- A turn of the reader leaves all numbers finite, for a command that is read has a finite
price. -/
theorem of_readerTurn (h : connection.IsFinite) (hturn : ReaderTurn connection next) :
    next.IsFinite := by
  cases hturn with
  | skip text rest _ _ _ hnext =>
    subst hnext
    exact ⟨h.session, h.forwarding, h.refusing, h.lines⟩
  | take text rest command _ _ _ hdecode hnext =>
    subst hnext
    refine ⟨h.session, fun found hfound => ?_, fun event hevent => ?_, h.lines⟩
    · cases hfound
      exact finite_of_decodeLine hdecode
    · cases hevent
  | refuse text rest event _ _ _ hdecode hnext =>
    subst hnext
    obtain ⟨oid, reason, rfl⟩ := rejectedLine_of_decodeLine hdecode
    refine ⟨h.session.of_others rfl rfl rfl (fun _ => .inl) fun event hevent => ?_,
      fun command hcommand => ?_, fun event hevent => ?_, h.lines⟩
    · exact .inl ((Outbox.events_request _ _) ▸ hevent)
    · cases hcommand
    · cases hevent
      -- A line that is no command has no price, and its rejection is told with zeros.
      have hzero : (0 : Float).isFinite = true := by decide
      exact ⟨hzero, hzero⟩
  | forward command inbox hreader hsend hnext =>
    subst hnext
    refine h.of_reader (h.session.of_others rfl rfl rfl (fun other hother => ?_) fun _ => .inl)
      (.inl rfl) rfl
    rw [Channel.items_of_send hsend] at hother
    refine (List.mem_append.1 hother).imp_right fun hlast => ?_
    rw [List.mem_singleton.1 hlast]
    exact h.forwarding command hreader
  | put event hreader _ hnext =>
    subst hnext
    refine h.of_reader (h.session.of_others rfl rfl rfl (fun _ => .inl) fun other hother => ?_)
      (.inl rfl) rfl
    refine (List.mem_append.1 hother).imp_right fun hlast => ?_
    rw [List.mem_singleton.1 hlast]
    exact h.refusing event hreader
  | stop _ _ hnext =>
    subst hnext
    exact h.endReading

/-- A step of the reader leaves all numbers finite. -/
theorem of_readerStep (h : connection.IsFinite) (hstep : connection.readerStep = some next) :
    next.IsFinite := by
  rcases readerTurn_or_of_readerStep hstep with hturn | ⟨rfl, _⟩
  · exact h.of_readerTurn hturn
  · exact h.endReading

/-- A step of the writer leaves all numbers finite. -/
theorem of_writerStep (h : connection.IsFinite) (hstep : connection.writerStep = some next) :
    next.IsFinite := by
  unfold Connection.writerStep at hstep
  split at hstep
  · cases hstep
  · next event outbox htake =>
    have hevents := (Outbox.take?_eq_some htake).2.1
    have hmem : event ∈ connection.session.outbox.events :=
      List.mem_of_getElem? (Outbox.take?_eq_some htake).1
    split at hstep
    · cases hstep
      refine ⟨h.session.of_others rfl rfl rfl (fun _ => .inl) fun _ hother => ?_,
        h.forwarding, h.refusing, fun line hline => ?_⟩
      · exact .inl (hevents ▸ hother)
      · rcases List.mem_append.1 hline with hline | hline
        · exact h.lines line hline
        · exact ⟨event, h.session.events event hmem, List.mem_singleton.1 hline⟩
    · cases hstep
      exact ⟨h.session.of_others rfl rfl rfl (fun _ => .inl)
        fun _ hother => .inl (hevents ▸ hother), h.forwarding, h.refusing, h.lines⟩

/-- A step of anybody leaves all numbers finite. -/
theorem of_step (h : connection.IsFinite) (hstep : step actor connection = some next) :
    next.IsFinite := by
  cases actor with
  | session actor =>
    obtain ⟨after, hafter, rfl⟩ := Option.map_eq_some_iff.1 hstep
    exact ⟨h.session.of_step hafter, h.forwarding, h.refusing, h.lines⟩
  | reader => exact h.of_readerStep hstep
  | writer => exact h.of_writerStep hstep

/-- Whatever happens, all numbers stay finite. -/
theorem after (h : connection.IsFinite) (happening : Happening) :
    (connection.after happening).IsFinite := by
  cases happening with
  | leave => exact ⟨h.session, h.forwarding, h.refusing, h.lines⟩
  | move move =>
    rcases connection.advance_cases move with ⟨actor, _, hstep⟩ | ⟨source, clock, incoming, heq, _⟩
    · exact h.of_step hstep
    · show (connection.advance move).IsFinite
      rw [heq]
      exact ⟨h.session.of_others rfl rfl rfl (fun _ => .inl) fun _ => .inl, h.forwarding,
        h.refusing, h.lines⟩

/-- All numbers stay finite, whatever happens. -/
theorem along (h : connection.IsFinite) (happenings : List Happening) :
    (happenings.foldl Connection.after connection).IsFinite := by
  induction happenings generalizing connection with
  | nil => exact h
  | cons happening rest ih => exact ih (h.after happening)

end IsFinite

/-- A finite number is not written as `null`. -/
theorem writeNumber_ne_null {x : Float} (h : x.isFinite = true) :
    Value.writeNumber (.real x) ≠ "null".toList := by
  obtain ⟨_, _, _, _, hrereads⟩ := rereads h
  obtain ⟨c, rest, hchars, hc⟩ := hrereads.spells.head
  rw [hchars]
  intro heq
  have hn : c = 'n' := (List.cons.inj heq).1
  rw [hn] at hc
  rcases hc with hc | hc <;> cases hc

/-- Along every run of a connection, whatever its client sends and its feeds deliver: the last
prices are finite and not negative, every order waits at the price of its command, which is finite,
and so are the price and the level of every event that was put. No line has a `null` for either, and
the client understands every line whose index has 64 bits. -/
theorem finite_along (source : Source) (limit : Option ℕ) (happenings : List Happening) :
    let connection := happenings.foldl after (start source limit)
    (∀ listing last, connection.session.book.last? listing = some last →
      last.isFinite = true ∧ ¬ last < 0) ∧
    (∀ listing, ∀ order ∈ connection.session.book.pending listing,
      order.trigger.level = order.command.price ∧ order.trigger.level.isFinite = true) ∧
    (∀ event ∈ connection.session.outbox.events,
      event.price.isFinite = true ∧ event.level.isFinite = true) ∧
    ∀ line ∈ connection.outgoing, ∃ event, line = eventLine event ∧
      event.price.isFinite = true ∧ event.level.isFinite = true ∧
      Value.writeNumber (.real event.price) ≠ "null".toList ∧
      Value.writeNumber (.real event.level) ≠ "null".toList ∧
      ((∀ i, event.index = some i → IsInt64 i) →
        ∃ price level, Event.ofLine? line = some { event with price, level }) := by
  have h := (isFinite_start source limit).along happenings
  refine ⟨fun listing last hlast => ?_, fun listing order horder => ?_, fun event hevent => ?_,
    fun line hline => ?_⟩
  · exact isValidPrice_iff.1 ((h.session.book listing).last last hlast)
  · have hfinite := (h.session.book listing).orders order horder
    exact ⟨hfinite.level, hfinite.level ▸ hfinite.price⟩
  · have hfinite := h.session.events event hevent
    exact ⟨hfinite.price, hfinite.level⟩
  · obtain ⟨event, hfinite, rfl⟩ := h.lines line hline
    refine ⟨event, rfl, hfinite.price, hfinite.level, writeNumber_ne_null hfinite.price,
      writeNumber_ne_null hfinite.level, fun hindex => ?_⟩
    obtain ⟨price, level, hconveys⟩ := understood_of_isFinite hfinite.price hfinite.level hindex
    exact ⟨price, level, hconveys.reads⟩

end Wire.Connection

end TriggerDesk
