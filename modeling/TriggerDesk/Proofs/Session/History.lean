import TriggerDesk.Proofs.Session.Effects

/-!
# What was done in a run

`Session.history` lists the deeds of a run, the earliest first, each with the actor that did it.
A turn that cannot be taken is not in it. Whatever comes into the outbox of an open session in a
run was put there by one of these deeds, in the same order (`events_run`), so `putBy` are the
events that one actor put.
-/

namespace TriggerDesk

open Market TriggerDesk.Order Feed

/-- The event that a deed puts into the outbox. -/
def Deed.event? : Deed → Option Event
  | .nothing | .take _ => none
  | .place _ order | .move order => some (Event.ack order.command order.trigger.direction)
  | .put event => some event

namespace Session

variable {session next : Session} {id : WatcherId}

/-- What is done in a move, and by whom, if anything. -/
def doneIn? (session : Session) : Move → Option (Actor × Deed)
  | .turn actor => (step actor session).map fun _ => (actor, session.deed actor)
  | .stimulus _ | .feeds _ => none

/-- What is done in a run, and by whom. -/
def history (session : Session) : List Move → List (Actor × Deed)
  | [] => []
  | move :: moves => (session.doneIn? move).toList ++ (session.advance move).history moves

/-- The events that an actor put. -/
def putBy (actor : Actor) (history : List (Actor × Deed)) : List Event :=
  (history.filter (·.1 = actor)).filterMap (·.2.event?)

/-- What is done in two runs in a row is what is done in the first and then what is done in the
second. -/
theorem history_append (session : Session) (first second : List Move) :
    session.history (first ++ second) =
      session.history first ++ (session.run first).history second := by
  induction first generalizing session with
  | nil => rfl
  | cons move moves ih =>
    rw [List.cons_append, history, history, ih, List.append_assoc, run_cons]

/-- What an actor put in two histories in a row is what it put in the first and then what it put in
the second. -/
theorem putBy_append (actor : Actor) (first second : List (Actor × Deed)) :
    putBy actor (first ++ second) = putBy actor first ++ putBy actor second := by
  simp only [putBy, List.filter_append, List.filterMap_append]

/-- An actor put the event of its own deed. -/
theorem putBy_self (actor : Actor) (deed : Deed) :
    putBy actor [(actor, deed)] = deed.event?.toList := by
  cases hevent : deed.event? <;> simp [putBy, hevent]

/-- An actor put nothing in the deed of another. -/
theorem putBy_of_ne {actor other : Actor} (h : other ≠ actor) (deed : Deed) :
    putBy actor [(other, deed)] = [] := by
  simp [putBy, h]

/-- What every turn of an open session keeps of a session and the deeds so far, and what nobody
disturbs, holds along its runs. -/
theorem holds_along_history {P : Session → List (Actor × Deed) → Prop}
    (hturn : ∀ {session next : Session} {done : List (Actor × Deed)} {actor : Actor},
      P session done → step actor session = some next → next.IsOpen →
      P next (done ++ [(actor, session.deed actor)]))
    (hsame : ∀ {session next : Session} {done : List (Actor × Deed)}, P session done →
      session.Undisturbed next → P next done)
    {done : List (Actor × Deed)} (h : P session done) {moves : List Move}
    (hopen : (session.run moves).IsOpen) :
    P (session.run moves) (done ++ session.history moves) := by
  induction moves generalizing session done with
  | nil => exact (List.append_nil done).symm ▸ h
  | cons move rest ih =>
    rw [history, ← List.append_assoc]
    refine ih ?_ hopen
    have hnext : (session.advance move).IsOpen := isOpen_of_run hopen
    cases move with
    | turn actor =>
      cases hstep : step actor session with
      | none =>
        rw [advance_turn_of_waits hstep, doneIn?, hstep]
        exact (List.append_nil done).symm ▸ h
      | some next =>
        rw [advance_turn hstep] at hnext ⊢
        rw [doneIn?, hstep]
        exact hturn h hstep hnext
    | stimulus stimulus =>
      exact (List.append_nil done).symm ▸ hsame h (undisturbed_meet session stimulus)
    | feeds source => exact (List.append_nil done).symm ▸ hsame h ⟨rfl, rfl, rfl, rfl, rfl⟩

/-! ## What comes into the outbox -/

/-- A turn of the desk adds its event to the outbox, if the session stays open. -/
theorem DeskTurn.events {deed : Deed} (h : session.DeskTurn next deed) (hopen : next.IsOpen) :
    next.outbox.events = session.outbox.events ++ deed.event?.toList := by
  cases h with
  | refuse _ _ hstill | arm _ _ hstill | await _ _ hstill | start _ _ hstill
  | restart _ _ _ _ hstill | prepare _ hstill =>
    exact hstill.events.trans (List.append_nil _).symm
  | cancel _ _ _ _ _ _ _ _ hevents => exact hevents.trans (List.append_nil _).symm
  | place _ _ _ _ _ _ _ _ _ hevents => exact hevents
  | move _ _ _ _ _ _ _ _ hevents => exact hevents
  | deliver _ _ _ _ _ _ hevents => exact hevents
  | shutDown _ _ _ hdesk => exact absurd hdesk hopen.running

/-- A turn of a watcher adds its event to the outbox, if the client takes events. -/
theorem WatcherTurn.events {watcher after : Watcher} {deed : Deed}
    (h : session.WatcherTurn next watcher after deed)
    (hreceiving : session.outbox.receiving = true) :
    next.outbox.events = session.outbox.events ++ deed.event?.toList := by
  cases h with
  | quiet _ hevents | goLive _ _ hevents | tick _ _ _ hevents | lose _ _ _ hevents =>
    exact hevents.trans (List.append_nil _).symm
  | deliver _ _ hevents => exact hevents
  | leave _ hleft =>
    rw [hreceiving] at hleft
    cases hleft

/-- What a watcher puts is the first event that it holds. -/
theorem WatcherTurn.held_of_event {watcher after : Watcher} {deed : Deed} {event : Event}
    (h : session.WatcherTurn next watcher after deed)
    (hreceiving : session.outbox.receiving = true) (hevent : deed.event? = some event) :
    watcher.held = event :: after.held := by
  cases h with
  | quiet | goLive | tick | lose => cases hevent
  | deliver put _ _ hheld =>
    cases hevent
    exact hheld
  | leave _ hleft =>
    rw [hreceiving] at hleft
    cases hleft

/-- A watcher that has events to put puts the first of them, whenever it takes a turn. -/
theorem held_of_watcherStep (hstep : step (.watcher id) session = some next)
    (hreceiving : session.outbox.receiving = true) (hholds : session.held (.watcher id) ≠ []) :
    ∃ event, session.deed (.watcher id) = .put event ∧
      session.held (.watcher id) = event :: next.held (.watcher id) := by
  obtain ⟨watcher, after, hreplaces, hturn⟩ := watcherTurn_of_watcherStep hstep
  rw [held_watcher hreplaces.was] at hholds ⊢
  rw [held_watcher hreplaces.becomes]
  have hdeed : ∀ {deed : Deed}, session.WatcherTurn next watcher after deed →
      ∃ event, deed = .put event ∧ watcher.held = event :: after.held := by
    intro deed hturn
    cases hturn with
    | quiet _ _ hnone | goLive _ _ _ hnone | tick _ _ _ _ hnone | lose _ _ _ _ hnone =>
      exact absurd hnone hholds
    | deliver event _ _ hheld => exact ⟨event, rfl, hheld⟩
    | leave _ hleft =>
      rw [hreceiving] at hleft
      cases hleft
  exact hdeed hturn

/-- What it put and what it holds is what it held. -/
theorem putBy_of_held (hstep : step (.watcher id) session = some next) (hopen : next.IsOpen)
    (hholds : session.held (.watcher id) ≠ []) :
    putBy (.watcher id) [(.watcher id, session.deed (.watcher id))] ++ next.held (.watcher id) =
      session.held (.watcher id) := by
  obtain ⟨event, hdeed, hheld⟩ :=
    held_of_watcherStep hstep (isOpen_of_step hstep hopen).receiving hholds
  rw [putBy_self, hdeed, hheld]
  rfl

/-- A watcher that holds nothing puts nothing. -/
theorem putBy_of_idle (hstep : step (.watcher id) session = some next) (hopen : next.IsOpen)
    (hidle : session.held (.watcher id) = []) :
    putBy (.watcher id) [(.watcher id, session.deed (.watcher id))] = [] := by
  obtain ⟨watcher, after, hreplaces, hturn⟩ := watcherTurn_of_watcherStep hstep
  rw [held_watcher hreplaces.was] at hidle
  rw [putBy_self]
  cases hevent : (session.deed (.watcher id)).event? with
  | none => rfl
  | some event =>
    have hheld := hturn.held_of_event (isOpen_of_step hstep hopen).receiving hevent
    rw [hidle] at hheld
    cases hheld

/-- Every turn adds the event of its deed to the outbox, if the session stays open. -/
theorem events_of_step {actor : Actor} (hstep : step actor session = some next)
    (hopen : next.IsOpen) :
    next.outbox.events = session.outbox.events ++ (session.deed actor).event?.toList := by
  cases actor with
  | desk => exact (deskTurn_of_deskStep hstep).events hopen
  | watcher id =>
    obtain ⟨watcher, after, _, hturn⟩ := watcherTurn_of_watcherStep hstep
    exact hturn.events (isOpen_of_step hstep hopen).receiving

/-- What comes into the outbox in a run is what its deeds put there. -/
theorem events_run {moves : List Move} (hopen : (session.run moves).IsOpen) :
    (session.run moves).outbox.events =
      session.outbox.events ++ (session.history moves).filterMap (·.2.event?) := by
  refine holds_along_history (P := fun later done =>
    later.outbox.events = session.outbox.events ++ done.filterMap (·.2.event?)) ?_ ?_
    (show _ = _ ++ List.filterMap _ [] from (List.append_nil _).symm) hopen
  · intro before next done actor h hstep hnext
    rw [events_of_step hstep hnext, h, List.filterMap_append, List.append_assoc]
    cases hevent : (before.deed actor).event? <;> simp [hevent]
  · intro before next done h hsame
    exact hsame.events.trans h

end Session

end TriggerDesk
