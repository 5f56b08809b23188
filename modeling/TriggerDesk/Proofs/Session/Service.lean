import TriggerDesk.Proofs.Session.Deadlines
import TriggerDesk.Proofs.Session.Losses
import TriggerDesk.Proofs.Session.Stages

/-!
# What holds up the desk

A desk that works on a command comes closer to its next one with each turn, and it takes its turn:
it waits for places that it gets, for a quote of which something comes, or for a watcher that puts
its cancellations and ends. So it is idle again and again, unless it waits from some time on for the
end of a watcher that has neither lost its feed nor ended (`Course.exists_idle_or_heldUp`).

`Session.Course` says what that needs of the world around the session, so that it holds of a session
by itself (`Session.course_of_fair`) and of one behind a connection.
-/

namespace TriggerDesk

open Market TriggerDesk.Order Feed

namespace Session

variable {session next : Session} {id : WatcherId} {watcher after : Watcher}

/-- When something has come of waiting for a first quote. -/
theorem quoteOutcome?_ne_none_iff {deadline : Option Nat} :
    session.quoteOutcome? watcher deadline ≠ none ↔
      watcher.outcome ≠ none ∨ watcher.phase.isEnded = true ∨
        deadline.any (· ≤ session.clock) = true := by
  unfold quoteOutcome?
  cases houtcome : watcher.outcome with
  | some outcome =>
    cases outcome <;> simp
  | none =>
    dsimp only
    split
    · next hended => simp [hended]
    · next hended =>
      split <;> simp_all

/-- A watcher that something has come of keeps that, whatever it does. -/
theorem Acts.outcome (h : Acts session next id watcher after) (houtcome : watcher.outcome ≠ none) :
    after.outcome ≠ none := by
  cases h with
  | subscribe | read | skip => exact houtcome
  | giveUp | goLive => exact Option.some_ne_none _
  | look stream price prices orders =>
    cases firedEvents orders watcher.index price <;> exact houtcome
  | lose stream failure orders =>
    cases drainedEvents orders failure.reason <;> exact houtcome
  | fired stream event rest prices => cases rest <;> exact houtcome
  | drained stream event rest => cases rest <;> exact houtcome
  | leave =>
    unfold Watcher.stop
    split <;> exact houtcome

/-- Who has ended takes no turn. -/
theorem Acts.not_isEnded (h : Acts session next id watcher after)
    (hended : watcher.phase.isEnded = true) : False := by
  cases h with
  | drained _ _ _ hphase
  | subscribe _ hphase | goLive _ _ hphase | read _ _ hphase | skip _ _ _ hphase
  | look _ _ _ _ hphase | lose _ _ _ hphase | fired _ _ _ _ hphase =>
    rw [hphase] at hended
    cases hended
  | giveUp _ hphase =>
    rcases hphase with hphase | ⟨_, hphase⟩ <;>
    · rw [hphase] at hended
      cases hended
  | leave _ hheld => exact hheld (Watcher.held_of_ended hended)

/-- What has come of waiting for a first quote does not go away. -/
theorem quoteOutcome?_lasts (id : WatcherId) {deadline : Option Nat}
    (houtcome : session.quoteOutcome? watcher deadline ≠ none)
    (hclock : session.clock ≤ next.clock)
    (hwatcher : after = watcher ∨ Acts session next id watcher after) :
    next.quoteOutcome? after deadline ≠ none := by
  rw [quoteOutcome?_ne_none_iff] at houtcome ⊢
  rcases houtcome with houtcome | hended | hover
  · rcases hwatcher with rfl | hacts
    · exact .inl houtcome
    · exact .inl (hacts.outcome houtcome)
  · rcases hwatcher with rfl | hacts
    · exact .inr (.inl hended)
    · exact (hacts.not_isEnded hended).elim
  · cases deadline with
    | none => cases hover
    | some deadline =>
      have hbefore : deadline ≤ session.clock := of_decide_eq_true hover
      exact .inr (.inr (decide_eq_true (Nat.le_trans hbefore hclock)))

/-- A watcher that lost its feed puts one of its cancellations in each turn. -/
theorem Acts.held_of_hasLost (h : Acts session next id watcher after)
    (hlost : watcher.phase.hasLost = true) (hreceiving : session.outbox.receiving = true) :
    after.held = watcher.held.tail := by
  cases h with
  | drained stream event rest hphase =>
    rw [Watcher.held_drains, Watcher.held, hphase]
    rfl
  | subscribe _ hphase | goLive _ _ hphase | read _ _ hphase | skip _ _ _ hphase
  | look _ _ _ _ hphase | lose _ _ _ hphase | fired _ _ _ _ hphase =>
    rw [hphase] at hlost
    cases hlost
  | giveUp _ hphase =>
    rcases hphase with hphase | ⟨_, hphase⟩ <;>
    · rw [hphase] at hlost
      cases hlost
  | leave hleft =>
    rw [hreceiving] at hleft
    cases hleft

/-- Whether the desk waits for no first quote, or something has come of its wait. -/
def quoteSettled (session : Session) : Bool :=
  match session.desk with
  | .awaitQuote _ id deadline =>
    session.watchers[id]?.any fun watcher => (session.quoteOutcome? watcher deadline).isSome
  | .idle | .awaitEnd _ _ | .awaitPlace _ _ | .awaitMove _ | .answering _ | .ended => true

/-- When the wait for a first quote is settled, its outcome can be read. -/
theorem exists_outcome_of_quoteSettled {placing : Placing} {deadline : Option Nat}
    (hdesk : session.desk = .awaitQuote placing id deadline)
    (hsettled : session.quoteSettled = true) :
    ∃ watcher, session.watchers[id]? = some watcher ∧
      session.quoteOutcome? watcher deadline ≠ none := by
  unfold quoteSettled at hsettled
  rw [hdesk] at hsettled
  obtain ⟨watcher, hwatcher, houtcome⟩ := (Option.any_eq_true _ _).1 hsettled
  exact ⟨watcher, hwatcher, Option.isSome_iff_ne_none.1 houtcome⟩

/-- The desk waits for the end of a watcher that has neither lost its feed nor ended. -/
structure HeldUp (session : Session) (placing : Placing) (id : WatcherId) : Prop where
  desk : session.desk = .awaitEnd placing id
  watcher : ∃ watcher, session.watchers[id]? = some watcher ∧
    watcher.phase.hasLost = false ∧ watcher.phase.isEnded = false

/-- A desk takes a turn when something has come of waiting for a first quote. -/
theorem deskStep_of_quote {placing : Placing} {deadline : Option Nat}
    (hdesk : session.desk = .awaitQuote placing id deadline)
    (hwatcher : session.watchers[id]? = some watcher)
    (houtcome : session.quoteOutcome? watcher deadline ≠ none) :
    ∃ next, session.deskStep = some next := by
  obtain ⟨outcome, houtcome⟩ := Option.ne_none_iff_exists'.1 houtcome
  unfold deskStep
  simp only [hdesk, hwatcher, houtcome, Option.bind_eq_bind, Option.bind_some]
  cases outcome <;> exact ⟨_, rfl⟩

/-- A desk that waits for the end of a watcher that has ended can go on. -/
theorem deskStep_of_isEnded {placing : Placing} (hdesk : session.desk = .awaitEnd placing id)
    (hwatcher : session.watchers[id]? = some watcher) (hended : watcher.phase.isEnded = true) :
    ∃ next, session.deskStep = some next := by
  unfold deskStep
  simp only [hdesk, hwatcher, hended, Option.bind_eq_bind, Option.bind_some, if_true]
  exact ⟨_, rfl⟩

/-- An idle desk waits only for commands that can come. -/
theorem deskStep_of_idle (hdesk : session.desk = .idle)
    (hcommands : session.inbox.items ≠ [] ∨ session.inbox.sending = false) :
    ∃ next, session.deskStep = some next := by
  unfold deskStep
  simp only [hdesk]
  cases hitems : session.inbox.items with
  | cons command rest =>
    simp only [Channel.receive?, hitems]
    exact ⟨_, rfl⟩
  | nil =>
    have hclosed := hcommands.resolve_left fun hsome => hsome hitems
    simp only [Channel.receive?, Channel.isEnded, hitems, hclosed, List.isEmpty_nil, Bool.not_false,
      Bool.and_self, if_true]
    exact ⟨_, rfl⟩

/-! ## The course of a session -/

/-- A session that stays open, moment by moment, and who takes a turn in each. -/
structure Course (sessions : Nat → Session) (takes : Nat → Actor → Prop) : Prop where
  isOpen : ∀ n, (sessions n).IsOpen
  staffed : ∀ n, (sessions n).Staffed
  steps : ∀ {n actor}, takes n actor → step actor (sessions n) = some (sessions (n + 1))
  /-- While nobody takes a turn, desk and watchers stay as they are and time goes on. -/
  rests : ∀ {n}, (∀ actor, ¬ takes n actor) →
    (sessions (n + 1)).desk = (sessions n).desk ∧
      (sessions (n + 1)).watchers = (sessions n).watchers ∧
      (sessions n).clock ≤ (sessions (n + 1)).clock
  /-- Everybody who can take a turn then gets one, again and again. -/
  turns : ∀ actor n, ∃ m, n ≤ m ∧
    ((∃ next, step actor (sessions m) = some next) → takes m actor)
  /-- Whoever needs a place gets one. -/
  served : ∀ actor {n}, (sessions n).needsPlace false actor.party = true →
    ∃ m, n ≤ m ∧ takes m actor

namespace Course

variable {sessions : Nat → Session} {takes : Nat → Actor → Prop} {n m : Nat} {actor : Actor}
  (h : Course sessions takes)
include h

/-- Who can take a turn until it does takes one. -/
theorem exists_takes_of_lasting (actor : Actor) {P : Nat → Prop}
    (hready : ∀ m, P m → ∃ next, step actor (sessions m) = some next)
    (hlasts : ∀ m, P m → ¬ takes m actor → P (m + 1)) (hnow : P n) :
    ∃ m, n ≤ m ∧ takes m actor := by
  obtain ⟨m, hm, hturn⟩ := h.turns actor n
  obtain ⟨k, hk, _, htakes⟩ :=
    exists_lasting ⟨m, hm, fun hnow => hturn (hready m hnow)⟩ hlasts hnow
  exact ⟨k, hk, htakes⟩

/-- Until its turn the desk stays where it is, and time goes on. -/
theorem of_others (hother : ¬ takes n .desk) :
    (sessions (n + 1)).desk = (sessions n).desk ∧
      (sessions n).clock ≤ (sessions (n + 1)).clock := by
  by_cases hrests : ∀ actor, ¬ takes n actor
  · have hsame := h.rests hrests
    exact ⟨hsame.1, hsame.2.2⟩
  · obtain ⟨actor, htakes⟩ := not_forall_not.1 hrests
    have hstep := h.steps htakes
    cases actor with
    | desk => exact absurd htakes hother
    | watcher id =>
      obtain ⟨_, _, hreplaces, _⟩ := watcherTurn_of_watcherStep hstep
      exact ⟨hreplaces.desk, Nat.le_of_eq (timely_of_step hstep).clock.symm⟩

/-- Until a turn of its own or of the desk a watcher stays as it is. -/
theorem watcher_of_rest (hother : ¬ takes n .desk) (hown : ¬ takes n (.watcher id))
    (hwatcher : (sessions n).watchers[id]? = some watcher) :
    (sessions (n + 1)).watchers[id]? = some watcher := by
  by_cases hrests : ∀ actor, ¬ takes n actor
  · rw [(h.rests hrests).2.1]
    exact hwatcher
  · obtain ⟨actor, htakes⟩ := not_forall_not.1 hrests
    cases actor with
    | desk => exact absurd htakes hother
    | watcher other =>
      obtain ⟨_, _, hreplaces, _⟩ := watcherTurn_of_watcherStep (h.steps htakes)
      have hne : id ≠ other := fun heq => hown (heq ▸ htakes)
      exact (hreplaces.others id hne).trans hwatcher

/-- While the desk takes no turn, a watcher stays as it is or does what watchers do. -/
theorem watcher_of_others (hother : ¬ takes n .desk)
    (hwatcher : (sessions n).watchers[id]? = some watcher) :
    ∃ after, (sessions (n + 1)).watchers[id]? = some after ∧
      (after = watcher ∨ Acts (sessions n) (sessions (n + 1)) id watcher after) := by
  by_cases hown : takes n (.watcher id)
  · obtain ⟨after, hafter, hacts⟩ := acts_of_watcherStep hwatcher (h.steps hown)
    exact ⟨after, hafter, .inr hacts⟩
  · exact ⟨watcher, h.watcher_of_rest hother hown hwatcher, .inl rfl⟩

/-! ### The desk -/

/-- A desk that works on a command is closer to its next one after its turn. -/
theorem exists_stage_lt (hbusy : (sessions n).desk ≠ .idle)
    (hturn : ∃ m, n ≤ m ∧ takes m .desk) :
    ∃ m, n ≤ m ∧ (sessions m).desk.stage < (sessions n).desk.stage := by
  refine exists_of_move (P := fun m => (sessions m).desk = (sessions n).desk) hturn
    (fun m hm => ?_) rfl
  by_cases htakes : takes m .desk
  · rcases onward_of_open (h.steps htakes) (h.isOpen (m + 1)) with ⟨hidle, _⟩ | honward
    · exact absurd (hm.symm.trans hidle) hbusy
    · exact .inl (hm ▸ honward.stage)
  · exact .inr ⟨(h.of_others htakes).1.trans hm, htakes⟩

/-- A desk that takes no turn stays where it is. -/
theorem desk_eq_of_never (hnever : ∀ m, n ≤ m → ¬ takes m .desk) (hm : n ≤ m) :
    (sessions m).desk = (sessions n).desk := by
  induction hm with
  | refl => rfl
  | step hm ih => exact (h.of_others (hnever _ hm)).1.trans ih

/-- A desk takes its turn when something has come of waiting for a first quote. -/
theorem exists_takes_of_quote {placing : Placing} {deadline : Option Nat}
    (hdesk : (sessions n).desk = .awaitQuote placing id deadline)
    (hwatcher : (sessions n).watchers[id]? = some watcher)
    (houtcome : (sessions n).quoteOutcome? watcher deadline ≠ none) :
    ∃ m, n ≤ m ∧ takes m .desk := by
  refine h.exists_takes_of_lasting .desk
    (P := fun m => (sessions m).desk = .awaitQuote placing id deadline ∧
      ∃ watcher, (sessions m).watchers[id]? = some watcher ∧
        (sessions m).quoteOutcome? watcher deadline ≠ none)
    ?_ ?_ ⟨hdesk, watcher, hwatcher, houtcome⟩
  · rintro m ⟨hdesk, watcher, hwatcher, houtcome⟩
    exact deskStep_of_quote hdesk hwatcher houtcome
  · rintro m ⟨hdesk, watcher, hwatcher, houtcome⟩ hother
    obtain ⟨hsame, hclock⟩ := h.of_others hother
    obtain ⟨after, hafter, hacts⟩ := h.watcher_of_others hother hwatcher
    exact ⟨hsame.trans hdesk, after, hafter,
      quoteOutcome?_lasts id houtcome hclock hacts⟩

/-- A desk takes its turn when the watcher whose end it awaits has ended. -/
theorem exists_takes_of_ended {placing : Placing}
    (hdesk : (sessions n).desk = .awaitEnd placing id)
    (hwatcher : (sessions n).watchers[id]? = some watcher)
    (hended : watcher.phase.isEnded = true) : ∃ m, n ≤ m ∧ takes m .desk := by
  refine h.exists_takes_of_lasting .desk
    (P := fun m => (sessions m).desk = .awaitEnd placing id ∧
      ∃ watcher, (sessions m).watchers[id]? = some watcher ∧ watcher.phase.isEnded = true)
    ?_ ?_ ⟨hdesk, watcher, hwatcher, hended⟩
  · rintro m ⟨hdesk, watcher, hwatcher, hended⟩
    exact deskStep_of_isEnded hdesk hwatcher hended
  · rintro m ⟨hdesk, watcher, hwatcher, hended⟩ hother
    refine ⟨(h.of_others hother).1.trans hdesk, ?_⟩
    obtain ⟨after, hafter, rfl | hacts⟩ := h.watcher_of_others hother hwatcher
    · exact ⟨after, hafter, hended⟩
    · exact (hacts.not_isEnded hended).elim

/-! ### Awaiting the end of a watcher -/

/-- Who lost its feed keeps what it holds until its turn, in which it puts one of its
cancellations. -/
theorem lost_succ (hwatcher : (sessions n).watchers[id]? = some watcher)
    (hlost : watcher.phase.hasLost = true) :
    (∃ after, (sessions (n + 1)).watchers[id]? = some after ∧ after.phase.hasLost = true ∧
        after.held = watcher.held.tail) ∨
      (sessions (n + 1)).watchers[id]? = some watcher ∧ ¬ takes n (.watcher id) := by
  have hreceiving := (h.isOpen n).receiving
  by_cases hown : takes n (.watcher id)
  · obtain ⟨after, hafter, hacts⟩ := acts_of_watcherStep hwatcher (h.steps hown)
    exact .inl ⟨after, hafter, hacts.hasLost hlost hreceiving,
      hacts.held_of_hasLost hlost hreceiving⟩
  · refine .inr ⟨?_, hown⟩
    by_cases hdesk : takes n .desk
    · exact (h.staffed n).hasLost_of_deskTurn (deskTurn_of_deskStep (h.steps hdesk))
        (h.isOpen (n + 1)) hwatcher hlost
    · exact h.watcher_of_rest hdesk hown hwatcher

/-- A watcher that has lost its feed ends. -/
theorem exists_isEnded_of_hasLost (hwatcher : (sessions n).watchers[id]? = some watcher)
    (hlost : watcher.phase.hasLost = true) :
    ∃ m, n ≤ m ∧ ∃ after, (sessions m).watchers[id]? = some after ∧
      after.phase.isEnded = true := by
  refine exists_of_rank
    (P := fun n => ∃ watcher, (sessions n).watchers[id]? = some watcher ∧
      watcher.phase.hasLost = true)
    (fun n => ((sessions n).held (.watcher id)).length)
    (fun n ⟨watcher, hwatcher, hlost⟩ => ?_) ⟨watcher, hwatcher, hlost⟩
  have hheld := held_watcher hwatcher
  by_cases hnone : watcher.held = []
  · exact .inl ⟨n, Nat.le_refl n, watcher, hwatcher, Watcher.isEnded_of_hasLost hlost hnone⟩
  -- It needs a place, and with its turn it holds a cancellation less.
  have hneeds : (sessions n).needsPlace false (Actor.watcher id).party = true := by
    rw [Actor.party, needsPlace, hheld, List.isEmpty_eq_false_iff.2 hnone]
    rfl
  obtain ⟨m, hm, after, hafter, hstill, hrest⟩ := exists_of_move
    (P := fun m => (sessions m).watchers[id]? = some watcher)
    (Q := fun m => ∃ after, (sessions m).watchers[id]? = some after ∧
      after.phase.hasLost = true ∧ after.held = watcher.held.tail)
    (h.served (.watcher id) hneeds) (fun m hm => h.lost_succ hm hlost) hwatcher
  refine .inr ⟨m, hm, ⟨after, hafter, hstill⟩, ?_⟩
  rw [held_watcher hafter, hrest, hheld, List.length_tail]
  exact Nat.sub_one_lt (mt List.length_eq_zero_iff.1 hnone)

/-- A desk that waits for ever for the end of a watcher waits for one that has neither lost its feed
nor ended. -/
theorem heldUp_of_never {placing : Placing} (hdesk : (sessions n).desk = .awaitEnd placing id)
    (hnever : ∀ m, n ≤ m → ¬ takes m .desk) (hm : n ≤ m) : (sessions m).HeldUp placing id := by
  have hsame := fun {k} (hk : n ≤ k) => (h.desk_eq_of_never hnever hk).trans hdesk
  obtain ⟨_, watcher, hwatcher, _⟩ := (h.staffed m).awaited placing id (hsame hm)
  have hrunning : ∀ {k after}, n ≤ k → (sessions k).watchers[id]? = some after →
      after.phase.isEnded = false := by
    intro k after hk hafter
    by_contra hended
    obtain ⟨l, hl, htakes⟩ := h.exists_takes_of_ended (hsame hk) hafter
      (Bool.not_eq_false _ ▸ hended)
    exact hnever l (Nat.le_trans hk hl) htakes
  refine ⟨hsame hm, watcher, hwatcher, ?_, hrunning hm hwatcher⟩
  by_contra hlost
  obtain ⟨k, hk, after, hafter, hended⟩ :=
    h.exists_isEnded_of_hasLost hwatcher (Bool.not_eq_false _ ▸ hlost)
  rw [hrunning (Nat.le_trans hm hk) hafter] at hended
  cases hended

/-! ### The next command -/

section Idle

variable (hquotes : ∀ n, ∃ m, n ≤ m ∧ (sessions m).quoteSettled = true)
include hquotes

/-- A desk that works on a command takes turns. -/
theorem exists_takes_of_busy
    (hends : ∀ n placing id, (sessions n).desk = .awaitEnd placing id → ∃ m, n ≤ m ∧ takes m .desk)
    (hbusy : (sessions n).desk ≠ .idle) : ∃ m, n ≤ m ∧ takes m .desk := by
  cases hdesk : (sessions n).desk with
  | idle => exact absurd hdesk hbusy
  | ended => exact absurd hdesk (h.isOpen n).running
  | awaitPlace | awaitMove | answering =>
    exact h.served .desk (by rw [Actor.party, needsPlace, hdesk]; rfl)
  | awaitEnd placing id => exact hends n placing id hdesk
  | awaitQuote placing id deadline =>
    by_contra hnone
    have hnever : ∀ m, n ≤ m → ¬ takes m .desk := fun m hm htakes => hnone ⟨m, hm, htakes⟩
    obtain ⟨m, hm, hsettled⟩ := hquotes n
    have hstill := (h.desk_eq_of_never hnever hm).trans hdesk
    obtain ⟨watcher, hwatcher, houtcome⟩ := exists_outcome_of_quoteSettled hstill hsettled
    obtain ⟨k, hk, htakes⟩ := h.exists_takes_of_quote hstill hwatcher houtcome
    exact hnever k (Nat.le_trans hm hk) htakes

/-- The desk is idle again and again, or waits from some time on for the end of a watcher that has
neither lost its feed nor ended. -/
theorem exists_idle_or_heldUp :
    (∀ n, ∃ m, n ≤ m ∧ (sessions m).desk = .idle) ∨
      ∃ n placing id, ∀ m, n ≤ m → (sessions m).HeldUp placing id := by
  refine Classical.or_iff_not_imp_right.2 fun hnone n => ?_
  have hends : ∀ n placing id, (sessions n).desk = .awaitEnd placing id →
      ∃ m, n ≤ m ∧ takes m .desk := by
    intro n placing id hdesk
    by_contra hnever
    exact hnone ⟨n, placing, id, fun m hm =>
      h.heldUp_of_never hdesk (fun k hk htakes => hnever ⟨k, hk, htakes⟩) hm⟩
  refine exists_of_rank (P := fun _ => True) (fun n => (sessions n).desk.stage) (fun n _ => ?_)
    trivial
  by_cases hidle : (sessions n).desk = .idle
  · exact .inl ⟨n, Nat.le_refl n, hidle⟩
  · obtain ⟨m, hm, hlt⟩ := h.exists_stage_lt hidle (h.exists_takes_of_busy hquotes hends hidle)
    exact .inr ⟨m, hm, trivial, hlt⟩

end Idle

end Course

/-- Every actor is a party of its own. -/
theorem Actor.party_injective : Function.Injective Actor.party := by
  intro first second hsame
  cases first with
  | desk =>
    cases second with
    | desk => rfl
    | watcher => cases hsame
  | watcher id =>
    cases second with
    | desk => cases hsame
    | watcher other => exact congrArg Actor.watcher (Party.watcher.inj hsame)

/-- Under a fair schedule a session takes its course as long as it stays open. -/
theorem course_of_fair (h : session.Kept) {schedule : Nat → Move}
    (hfair : Fair schedule) (hopen : ∀ n, (session.run (movesOf schedule n)).IsOpen) :
    Course (fun n => session.run (movesOf schedule n))
      fun n actor => (session.run (movesOf schedule n)).Takes (schedule n) actor.party where
  isOpen := hopen
  staffed n := (h.run (hopen n)).sound.staffed
  steps := by
    rintro n actor ⟨other, hparty, hturn, next, hstep⟩
    cases Actor.party_injective hparty
    rw [run_movesOf_succ, hturn, advance_turn hstep]
    exact hstep
  rests := by
    intro n hother
    rw [run_movesOf_succ]
    cases hmove : schedule n with
    | turn actor =>
      cases hstep : step actor (session.run (movesOf schedule n)) with
      | none =>
        rw [advance_turn_of_waits hstep]
        exact ⟨rfl, rfl, Nat.le_refl _⟩
      | some next => exact absurd ⟨actor, rfl, hmove, next, hstep⟩ (hother actor)
    | stimulus stimulus =>
      have hsame := undisturbed_meet (session.run (movesOf schedule n)) stimulus
      exact ⟨hsame.desk, hsame.watchers, (passes_meet _ stimulus).2⟩
    | feeds source => exact ⟨rfl, rfl, Nat.le_refl _⟩
  turns actor n := by
    obtain ⟨m, hm, hturn⟩ := hfair.turns actor n
    exact ⟨m, hm, fun hready => ⟨actor, rfl, hturn, hready⟩⟩
  served actor n hneeds :=
    (flows_of_fair h hfair hopen).exists_takes (((h.run (hopen n)).queued.mem _).2 hneeds)

end Session

end TriggerDesk
