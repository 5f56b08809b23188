import TriggerDesk.Proofs.Session.Charges

/-!
# How far the desk is with a command

`Desk.stage` counts how many turns the desk still needs at most for the command that it works on.
Every turn that does not take up another command brings the count down (`onward_of_deskStep`): a
feed is sought anew once at most. So nothing but waiting keeps the desk from its next command.
-/

namespace TriggerDesk

open Market TriggerDesk.Order Feed

/-- How many turns an order takes at most after the desk has a place for its acknowledgement and
finds the feed lost. -/
def Placing.turnsLeft (placing : Placing) : Nat := if placing.again then 0 else 3

/-- How many turns the desk needs at most before it is idle. -/
def Desk.stage : Desk → Nat
  | .idle | .ended => 0
  | .answering _ => 1
  | .awaitMove _ => 2
  | .awaitPlace placing _ => placing.turnsLeft + 2
  | .awaitQuote placing _ _ => placing.turnsLeft + 3
  | .awaitEnd placing _ => placing.turnsLeft + 4

namespace Session

variable {first session next : Session}

/-- The session is not over, the inbox is as it was, and the desk has fewer turns before it than a
number. -/
structure Onward (first session : Session) (bound : Nat) : Prop where
  running : session.desk ≠ .ended
  inbox : session.inbox = first.inbox
  stage : session.desk.stage < bound

/-- A bound may be raised. -/
theorem Onward.mono {bound more : Nat} (h : Onward first session bound) (hle : bound ≤ more) :
    Onward first session more :=
  ⟨h.running, h.inbox, Nat.lt_of_lt_of_le h.stage hle⟩

/-- What happens to the desk does not depend on how else the session was prepared. -/
theorem Onward.of_eq {ready : Session} {bound : Nat} (h : Onward ready next bound)
    (hinbox : ready.inbox = session.inbox) : Onward session next bound :=
  ⟨h.running, h.inbox.trans hinbox, h.stage⟩

/-- A desk that rejects a command needs less than two more turns. -/
theorem onward_reject (session : Session) (command : Command) (rejection : Rejection) :
    Onward session (session.reject command rejection) 2 :=
  ⟨nofun, rfl, Nat.lt_succ_self 1⟩

/-- How many turns are left once an order is armed. -/
theorem onward_arm (session : Session) (placing : Placing) (last : Float) :
    Onward session (session.arm placing last) (placing.turnsLeft + 3) :=
  ⟨nofun, rfl, Nat.lt_succ_self _⟩

/-- How many turns are left once a watcher is started. -/
theorem onward_startWatcher (session : Session) (placing : Placing) :
    Onward session (session.startWatcher placing) (placing.turnsLeft + 4) :=
  ⟨nofun, rfl, Nat.lt_succ_self _⟩

/-- How many turns are left once a watcher is replaced. -/
theorem onward_replaceWatcher (session : Session) (placing : Placing) :
    Onward session (session.replaceWatcher placing) (placing.turnsLeft + 5) := by
  unfold replaceWatcher
  split
  · exact (onward_startWatcher session placing).mono (Nat.le_succ _)
  · dsimp only
    split
    · exact ⟨nofun, rfl, Nat.lt_succ_self _⟩
    · exact ((onward_startWatcher _ placing).mono (Nat.le_succ _)).of_eq
        (bystanders_endWatcher _ _ _).inbox

/-- How many turns are left once the feed of a listing is sought. -/
theorem onward_seekFeed (session : Session) (placing : Placing) :
    Onward session (session.seekFeed placing) (placing.turnsLeft + 5) := by
  unfold seekFeed
  split
  · exact (onward_arm session placing _).mono (Nat.add_le_add_left (by decide) _)
  · exact onward_replaceWatcher session placing

/-- A feed that was lost is sought once more, and then no more. -/
theorem onward_tryAgain (session : Session) (placing : Placing) :
    Onward session (session.tryAgain placing) (placing.turnsLeft + 2) := by
  unfold tryAgain
  split
  · exact (onward_reject session _ _).mono (Nat.le_add_left _ _)
  · next hfirst =>
    refine (onward_seekFeed session { placing with again := true }).mono ?_
    simp [Placing.turnsLeft, hfirst]

/-- How many turns are left once the wait for a first quote is over. -/
theorem onward_feedReady (session : Session) (placing : Placing) :
    Onward session (session.feedReady placing) (placing.turnsLeft + 3) := by
  unfold feedReady
  dsimp only
  split
  · exact (onward_arm _ placing _).of_eq rfl
  · exact ((onward_tryAgain _ placing).mono (Nat.le_succ _)).of_eq rfl

/-- How many turns are left once an order is placed or its feed was found lost. -/
theorem onward_place (session : Session) (placing : Placing) (last : Float) :
    Onward session (session.place placing last) (placing.turnsLeft + 2) := by
  unfold place
  dsimp only
  split
  · exact ⟨nofun, rfl, Nat.succ_pos _⟩
  · have hrejected : Onward session
        (session.returnPlace.reject placing.command .duplicateOid) 2 :=
      (onward_reject session.returnPlace _ _).of_eq rfl
    exact hrejected.mono (Nat.le_add_left _ _)
  · exact (onward_tryAgain _ placing).of_eq rfl

/-- A desk that has moved an order, or refused to, needs less than two more turns. -/
theorem onward_move (session : Session) (command : Command) :
    Onward session (session.move command) 2 := by
  unfold move
  split
  · exact (onward_reject session.returnPlace _ _).of_eq rfl
  · exact ⟨nofun, rfl, Nat.succ_pos _⟩

/-! ## Taking a command up -/

/-- A command that places an order is taken up without a look at the inbox. -/
theorem inbox_handleOrder (session : Session) (command : Command) :
    (session.handleOrder command).inbox = session.inbox := by
  unfold handleOrder
  split
  · exact (onward_reject session _ _).inbox
  · split
    · exact (onward_reject session _ _).inbox
    · split
      · exact (onward_reject session _ _).inbox
      · exact (onward_seekFeed session _).inbox

/-- A cancellation is taken up without a look at the inbox. -/
theorem inbox_handleCancel (session : Session) (command : Command) :
    (session.handleCancel command).inbox = session.inbox := by
  unfold handleCancel
  split
  · exact (onward_reject session _ _).inbox
  · rfl

/-- A command that moves an order is taken up without a look at the inbox. -/
theorem inbox_handleModify (session : Session) (command : Command) :
    (session.handleModify command).inbox = session.inbox := by
  unfold handleModify
  split
  · exact (onward_reject session _ _).inbox
  · rfl

/-- Any command is taken up without a look at the inbox. -/
theorem inbox_handle (session : Session) (command : Command) :
    (session.handle command).inbox = session.inbox := by
  unfold handle
  dsimp only
  split
  · exact inbox_handleOrder _ command
  · exact inbox_handleOrder _ command
  · exact inbox_handleOrder _ command
  · exact inbox_handleCancel _ command
  · exact inbox_handleModify _ command

/-! ## Turns -/

/-- A turn of the desk takes up a command, brings the desk closer to its next one, or ends the
session: when the client has left, or when no command is left and none can come. -/
theorem onward_of_deskStep (h : session.deskStep = some next) :
    (session.desk = .idle ∧ next.desk ≠ .ended ∧
        ∃ command, session.inbox.receive? = some (command, next.inbox)) ∨
      Onward session next session.desk.stage ∨
      next = session.shutDown ∧ (session.outbox.receiving = false ∨
        session.desk = .idle ∧ session.inbox.isEnded = true) := by
  -- The four phases that wait for a place either get it or find that the client has left.
  have hplace : ∀ {further : Session → Session} {bound : Nat},
      Onward session (further session) bound → session.withPlace further = some next →
      Onward session next bound ∨ next = session.shutDown ∧ (session.outbox.receiving = false ∨
        session.desk = .idle ∧ session.inbox.isEnded = true) := by
    intro further bound hfurther hnext
    rcases withPlace_cases hnext with rfl | ⟨hleft, rfl⟩
    · exact .inl hfurther
    · exact .inr ⟨rfl, .inl hleft⟩
  unfold deskStep at h
  cases hdesk : session.desk with
  | idle =>
    rw [hdesk] at h
    cases hreceive : session.inbox.receive? with
    | none =>
      simp only [hreceive] at h
      split at h
      · next hended =>
        cases h
        exact .inr (.inr ⟨rfl, .inr ⟨rfl, hended⟩⟩)
      · cases h
    | some received =>
      obtain ⟨command, inbox⟩ := received
      simp only [hreceive] at h
      cases h
      rw [inbox_handle]
      have htaken := charges_handle { session with inbox } command
      rw [hdesk] at htaken
      exact .inl ⟨rfl, htaken.running, command, rfl⟩
  | awaitEnd placing id =>
    rw [hdesk] at h
    obtain ⟨watcher, _, h⟩ := Option.bind_eq_some_iff.1 h
    split at h
    · cases h
      exact .inr (.inl (onward_startWatcher session placing))
    · cases h
  | awaitQuote placing id deadline =>
    rw [hdesk] at h
    obtain ⟨watcher, _, h⟩ := Option.bind_eq_some_iff.1 h
    obtain ⟨outcome, _, h⟩ := Option.bind_eq_some_iff.1 h
    split at h
    · cases h
      exact .inr (.inl (onward_feedReady session placing))
    · cases h
      exact .inr (.inl ((onward_reject session _ _).mono (Nat.le_add_left 2 _)))
  | awaitPlace placing last =>
    rw [hdesk] at h hplace
    exact .inr (hplace (onward_place session placing last) h)
  | awaitMove command =>
    rw [hdesk] at h hplace
    exact .inr (hplace (onward_move session command) h)
  | answering event =>
    rw [hdesk] at h hplace
    have hput : Onward session { session.put .desk event with desk := .idle } 1 :=
      ⟨nofun, rfl, Nat.succ_pos 0⟩
    exact .inr (hplace hput h)
  | ended =>
    rw [hdesk] at h
    cases h

/-- As long as the session stays open, it takes up a command or comes closer to its next one. -/
theorem onward_of_open (h : session.deskStep = some next) (hopen : next.IsOpen) :
    (session.desk = .idle ∧ ∃ command, session.inbox.receive? = some (command, next.inbox)) ∨
      Onward session next session.desk.stage := by
  rcases onward_of_deskStep h with ⟨hidle, _, hreceive⟩ | honward | ⟨rfl, _⟩
  · exact .inl ⟨hidle, hreceive⟩
  · exact .inr honward
  · exact absurd rfl hopen.running

/-- An idle desk takes a turn only if it has a command to take up. -/
theorem receive_of_idle (h : session.deskStep = some next) (hopen : next.IsOpen)
    (hidle : session.desk = .idle) :
    ∃ command, session.inbox.receive? = some (command, next.inbox) := by
  rcases onward_of_open h hopen with ⟨_, hreceive⟩ | honward
  · exact hreceive
  · have hstage := honward.stage
    rw [hidle] at hstage
    cases hstage

end Session

end TriggerDesk
