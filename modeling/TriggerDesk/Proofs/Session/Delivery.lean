import TriggerDesk.Proofs.Outbox.Service
import TriggerDesk.Proofs.Session.History
import TriggerDesk.Proofs.Session.Queue

/-!
# Whoever waits is served

A schedule says what happens to a session, without end. It is fair if everybody gets turns again
and again and the client takes events again and again. As long as the session stays open, a fair
schedule lets every watcher put whatever it holds, however small the outbox is and whoever else
asks for places (`exists_held_eq_nil_of_fair`). Such schedules exist as long as the client is there
and may send commands (`exists_fair`).

Whoever stands first in the line has a place or gets the next one that the client frees, and
nobody behind is overtaken meanwhile. So everybody in the line takes its turn (`flows_of_fair`), and
with each turn a watcher holds an event less.
-/

namespace TriggerDesk

open Market TriggerDesk.Order Feed

namespace Session

variable {session next : Session} {id : WatcherId} {watcher : Watcher} {actor : Actor}
  {party : Party} {move : Move} {refusing : Bool}

/-- The watchers, the desk and the book of an open session are in order. -/
structure Tidy (session : Session) : Prop where
  sound : session.Sound
  described : ∃ roster : Roster, roster.Describes session.book

/-- A session is tidy when it starts. -/
theorem tidy_start (source : Source) (limit : Option Nat) (inboxCapacity outboxCapacity : Nat) :
    (start source limit inboxCapacity outboxCapacity).Tidy :=
  ⟨sound_start _ _ _ _, _, Roster.describes_empty⟩

/-- A turn keeps an open session tidy. -/
theorem Tidy.of_step (h : session.Tidy) (hstep : step actor session = some next)
    (hopen : next.IsOpen) : next.Tidy := by
  obtain ⟨roster, hroster⟩ := h.described
  obtain ⟨later, hlater, _⟩ := effect_of_step h.sound hroster hstep hopen
  exact ⟨h.sound.of_step hstep hopen, later, hlater⟩

/-- What changes no order and no event keeps a session tidy. -/
theorem Tidy.of_undisturbed (h : session.Tidy) (hsame : session.Undisturbed next) : next.Tidy :=
  ⟨h.sound.of_undisturbed hsame, hsame.book ▸ h.described⟩

/-- So is the line before its outbox, which has places. -/
structure Kept (session : Session) : Prop extends Tidy session where
  queued : session.Queued false
  roomy : 0 < session.outbox.capacity

/-- A session whose outbox has a place is well kept when it starts. -/
theorem kept_start (source : Source) (limit : Option Nat) (inboxCapacity : Nat)
    {outboxCapacity : Nat} (hcapacity : 0 < outboxCapacity) :
    (start source limit inboxCapacity outboxCapacity).Kept :=
  ⟨tidy_start _ _ _ _, queued_start _ _ _ _, hcapacity⟩

/-- A turn keeps an open session well kept. -/
theorem Kept.of_step (h : session.Kept) (hstep : step actor session = some next)
    (hopen : next.IsOpen) : next.Kept :=
  have hlined := lined_of_step h.queued hstep hopen
  ⟨h.toTidy.of_step hstep hopen, hlined.queued, hlined.capacity.symm ▸ h.roomy⟩

/-! ## What everybody else keeps -/

/-- Whoever takes a turn, the others hold the events that they held. -/
theorem Effect.held_of_ne {entries later : List (Listing × Pending)} {deed : Deed}
    (h : Effect session next actor entries later deed) {other : Actor} (hne : other ≠ actor) :
    next.held other = session.held other := by
  cases h with
  | nothing _ _ hheld | place _ _ _ _ _ _ _ _ hheld | move _ _ _ _ _ _ _ _ _ hheld
  | refuse _ _ _ _ hheld => exact hheld other
  | take _ _ _ _ _ _ _ hothers => exact hothers other hne
  | conclude _ _ _ _ hothers => exact hothers other hne

/-- In a tidy session a turn leaves the others the events that they held. -/
theorem Tidy.held_of_ne (h : session.Tidy) (hstep : step actor session = some next)
    (hopen : next.IsOpen) {other : Actor} (hne : other ≠ actor) :
    next.held other = session.held other := by
  obtain ⟨roster, hroster⟩ := h.described
  obtain ⟨later, _, heffect⟩ := effect_of_step h.sound hroster hstep hopen
  exact heffect.held_of_ne hne

/-- What a watcher holds it puts before anything else. -/
theorem Tidy.held_prefix_run (h : session.Tidy) (id : WatcherId) {moves : List Move}
    (hopen : (session.run moves).IsOpen) :
    session.held (.watcher id) <+:
      putBy (.watcher id) (session.history moves) ++ (session.run moves).held (.watcher id) := by
  have hall := holds_along_history (P := fun later done => later.Tidy ∧
      session.held (.watcher id) <+: putBy (.watcher id) done ++ later.held (.watcher id))
    ?_ ?_ (show _ ∧ _ <+: putBy _ [] ++ _ from ⟨h, List.prefix_rfl⟩) hopen
  · exact hall.2
  · rintro before next done actor ⟨htidy, hbefore⟩ hstep hnext
    refine ⟨htidy.of_step hstep hnext, ?_⟩
    rw [putBy_append, List.append_assoc]
    by_cases hactor : actor = .watcher id
    · subst hactor
      by_cases hidle : before.held (.watcher id) = []
      · rw [hidle, List.append_nil] at hbefore
        exact hbefore.trans (List.prefix_append _ _)
      · rwa [putBy_of_held hstep hnext hidle]
    · rwa [putBy_of_ne hactor, List.nil_append, htidy.held_of_ne hstep hnext (Ne.symm hactor)]
  · rintro before next done ⟨htidy, hbefore⟩ hsame
    exact ⟨htidy.of_undisturbed hsame, hsame.held_eq (.watcher id) ▸ hbefore⟩

/-- A turn of somebody else does not change whether a party needs a place. -/
theorem Tidy.needsPlace_of_ne (h : session.Tidy) (hstep : step actor session = some next)
    (hopen : next.IsOpen) (hne : party ≠ actor.party) :
    next.needsPlace refusing party = session.needsPlace refusing party := by
  cases party with
  | reader => rfl
  | desk =>
    cases actor with
    | desk => exact absurd rfl hne
    | watcher id =>
      obtain ⟨watcher, after, hreplaces, _⟩ := watcherTurn_of_watcherStep hstep
      exact congrArg Desk.needsPlace hreplaces.desk
  | watcher other =>
    have hother : Actor.watcher other ≠ actor := fun heq => hne (heq ▸ rfl)
    rw [needsPlace, needsPlace, h.held_of_ne hstep hopen hother]

/-! ## Moves that are no turns -/

/-- Nobody takes a turn: the line stays, and those who have a place keep it. -/
structure Aligned (session next : Session) : Prop extends Undisturbed session next where
  queued : next.Queued false
  line : next.outbox.line = session.outbox.line
  capacity : next.outbox.capacity = session.outbox.capacity
  granted : ∀ party ∈ session.outbox.granted, party ∈ next.outbox.granted

/-- What changes no watcher and not the desk changes nobody's need for a place. -/
theorem Undisturbed.needsPlace_eq (h : session.Undisturbed next) (party : Party) :
    next.needsPlace refusing party = session.needsPlace refusing party := by
  cases party with
  | desk => exact congrArg Desk.needsPlace h.desk
  | reader => rfl
  | watcher id => rw [needsPlace, needsPlace, h.held_eq]

/-- A move that is no turn and leaves the outbox as it is keeps everybody where they are in the
line. -/
theorem Queued.aligned (h : session.Queued false) (hsame : session.Undisturbed next)
    (houtbox : next.outbox = session.outbox) : session.Aligned next where
  toUndisturbed := hsame
  queued := {
    receiving := houtbox ▸ h.receiving
    running := hsame.desk ▸ h.running
    orderly := houtbox ▸ h.orderly
    mem := fun party => by
      rw [houtbox, hsame.needsPlace_eq]
      exact h.mem party }
  line := congrArg Outbox.line houtbox
  capacity := congrArg Outbox.capacity houtbox
  granted _ hgranted := houtbox ▸ hgranted

/-- The client takes an event. -/
theorem Queued.aligned_take (h : session.Queued false) : session.Aligned (session.meet .take) := by
  have hsame := undisturbed_meet session .take
  unfold meet at hsame ⊢
  cases htake : session.outbox.take? with
  | none => exact h.aligned ⟨rfl, rfl, rfl, rfl, rfl⟩ rfl
  | some taken =>
    obtain ⟨event, outbox⟩ := taken
    obtain ⟨hline, hcapacity⟩ := Outbox.line_take? htake
    rw [htake] at hsame
    exact {
      toUndisturbed := hsame
      queued := h.of_take htake
      line := hline
      capacity := hcapacity
      granted := fun party hgranted => Outbox.mem_granted_take? htake hgranted }

/-- A move is a turn that somebody takes, or leaves the line as it is. -/
theorem Queued.advance_cases (h : session.Queued false) (hopen : (session.advance move).IsOpen) :
    (∃ actor, move = .turn actor ∧ step actor session = some (session.advance move)) ∨
      session.Aligned (session.advance move) ∧
        ∀ actor, move = .turn actor → step actor session = none := by
  cases move with
  | turn actor =>
    cases hstep : step actor session with
    | none =>
      rw [advance_turn_of_waits hstep]
      refine .inr ⟨h.aligned ⟨rfl, rfl, rfl, rfl, rfl⟩ rfl, fun other heq => ?_⟩
      cases heq
      exact hstep
    | some next =>
      rw [advance_turn hstep]
      exact .inl ⟨actor, rfl, hstep⟩
  | feeds source => exact .inr ⟨h.aligned ⟨rfl, rfl, rfl, rfl, rfl⟩ rfl, nofun⟩
  | stimulus stimulus =>
    refine .inr ⟨?_, nofun⟩
    have hsame := undisturbed_meet session stimulus
    cases stimulus with
    | take => exact h.aligned_take
    | leave => cases hopen.receiving
    | send command =>
      refine h.aligned hsame ?_
      simp only [advance, meet]
      split <;> rfl
    | endCommands | push | breakStream | closeStream | refuse | wait => exact h.aligned hsame rfl

/-- A move keeps the line before the outbox in order, if the session stays open. -/
theorem Queued.advance (h : session.Queued false) (hopen : (session.advance move).IsOpen) :
    (session.advance move).Queued false := by
  rcases h.advance_cases hopen with ⟨actor, _, hstep⟩ | ⟨haligned, _⟩
  · exact (lined_of_step h hstep hopen).queued
  · exact haligned.queued

/-- A move keeps a session well kept, if it stays open. -/
theorem Kept.advance (h : session.Kept) (hopen : (session.advance move).IsOpen) :
    (session.advance move).Kept := by
  rcases h.queued.advance_cases hopen with ⟨actor, _, hstep⟩ | ⟨haligned, _⟩
  · exact h.of_step hstep hopen
  · exact ⟨h.toTidy.of_undisturbed haligned.toUndisturbed, haligned.queued,
      haligned.capacity.symm ▸ h.roomy⟩

/-- A run keeps a session well kept, if it stays open. -/
theorem Kept.run (h : session.Kept) {moves : List Move} (hopen : (session.run moves).IsOpen) :
    (session.run moves).Kept := by
  induction moves generalizing session with
  | nil => exact h
  | cons move rest ih => exact ih (h.advance (isOpen_of_run hopen)) hopen

/-! ## Positions in the line -/

/-- What a turn of somebody else does to the position of a party: it comes closer to its turn if
that somebody was further to the front, and falls back in no case. -/
theorem Lined.idxOf_le {first : Session} {again : Bool}
    (h : Lined first session party again refusing) (hfirst : first.outbox.Orderly)
    {other : Party} (hne : other ≠ party) (hmem : other ∈ session.outbox.line) :
    session.outbox.line.idxOf other ≤ (first.outbox.line.erase party).idxOf other := by
  have hkept : other ∈ first.outbox.line.erase party := by
    rcases List.mem_append.1 (h.sublist.subset hmem) with hkept | hlast
    · exact hkept
    · split at hlast
      · exact absurd (List.mem_singleton.1 hlast) hne
      · cases hlast
  have hnodup : (first.outbox.line.erase party ++ if again then [party] else []).Nodup := by
    split
    · refine List.nodup_append.2 ⟨hfirst.nodup.erase party, List.nodup_singleton party, ?_⟩
      rintro one hone two htwo rfl
      rw [List.mem_singleton.1 htwo] at hone
      exact hfirst.nodup.not_mem_erase hone
    · rw [List.append_nil]
      exact hfirst.nodup.erase party
  have hle := Outbox.idxOf_le_of_sublist h.sublist hnodup hmem
  rwa [List.idxOf_append_of_mem hkept] at hle

/-- Whoever still needs a place keeps it in a turn of somebody else. -/
theorem Lined.keeps {first : Session} {again : Bool} {takes : Party → Prop}
    (h : Lined first session party again refusing) (hfirst : first.outbox.Orderly)
    {other : Party} (hne : other ≠ party) (hneeds : session.needsPlace refusing other = true)
    (hturn : ∀ acting, takes acting → acting = party) :
    Outbox.Keeps other takes first.outbox session.outbox := by
  have hstays := (h.others other hne).2 hneeds
  have hle := h.idxOf_le hfirst hne hstays
  refine ⟨hstays, Nat.le_trans hle (Outbox.idxOf_erase_le _ hne), ?_, fun hgranted =>
    h.granted other hne hgranted hneeds⟩
  intro acting hhead htakes
  have hlt := Outbox.idxOf_erase_of_head (hturn acting htakes ▸ hhead) hne
  omega

/-- When the client takes an event, the first in the line has a place. -/
theorem Queued.granted_of_take (h : session.Queued false) (hcapacity : 0 < session.outbox.capacity)
    (hhead : session.outbox.line.head? = some party) :
    party ∈ (session.meet .take).outbox.granted := by
  rcases Outbox.granted_or_take? h.orderly h.receiving hcapacity hhead with
    hgranted | ⟨event, outbox, htake, hgranted⟩
  · exact h.aligned_take.granted party hgranted
  · simp only [meet, htake]
    exact hgranted

/-- Whoever has a place takes the next turn. -/
theorem Queued.step_of_granted (h : session.Queued refusing)
    (hgranted : actor.party ∈ session.outbox.granted) : ∃ next, step actor session = some next := by
  have hneeds := (h.mem actor.party).1 (List.mem_append_left _ hgranted)
  have hstanding := Outbox.standing_eq_granted h.receiving hgranted
  cases actor with
  | desk =>
    -- Only three phases of the desk need a place, and in each it can use the one that it has.
    have hplace : ∀ further : Session → Session,
        session.withPlace further = some (further session) := by
      intro further
      unfold withPlace
      rw [show session.outbox.standing .desk = .granted from hstanding]
    unfold step deskStep
    dsimp only
    cases hdesk : session.desk with
    | awaitPlace placing last => exact ⟨_, hplace _⟩
    | awaitMove command => exact ⟨_, hplace _⟩
    | answering event => exact ⟨_, hplace _⟩
    | idle | awaitEnd | awaitQuote | ended =>
      simp only [Actor.party, needsPlace, hdesk, Desk.needsPlace] at hneeds
      cases hneeds
  | watcher id =>
    have hdeliver : ∀ (event : Event) (further : Session → Session),
        session.deliver id event further = some (further (session.put (.watcher id) event)) := by
      intro event further
      unfold deliver
      rw [show session.outbox.standing (.watcher id) = .granted from hstanding]
    cases hwatcher : session.watchers[id]? with
    | none =>
      simp [Actor.party, needsPlace, held, hwatcher] at hneeds
    | some watcher =>
      simp only [Actor.party, needsPlace, held_watcher hwatcher, Watcher.held] at hneeds
      simp only [step, watcherStep, hwatcher, Option.bind_eq_bind, Option.bind_some]
      cases hphase : watcher.phase with
      | firing stream event rest prices => exact ⟨_, hdeliver _ _⟩
      | retiring stream event rest => exact ⟨_, hdeliver _ _⟩
      | starting | opening | following | ended =>
        rw [hphase] at hneeds
        cases hneeds

/-! ## Schedules -/

/-- The first moves of a schedule. -/
def movesOf (schedule : Nat → Move) (n : Nat) : List Move := (List.range n).map schedule

/-- One move more of a schedule is made after the others. -/
theorem run_movesOf_succ (session : Session) (schedule : Nat → Move) (n : Nat) :
    session.run (movesOf schedule (n + 1)) =
      (session.run (movesOf schedule n)).advance (schedule n) := by
  rw [movesOf, List.range_succ, List.map_append, run_append]
  rfl

/-- Everybody gets turns again and again, and the client takes events again and again. -/
structure Fair (schedule : Nat → Move) : Prop where
  turns : ∀ actor n, ∃ m, n ≤ m ∧ schedule m = .turn actor
  takes : ∀ n, ∃ m, n ≤ m ∧ schedule m = .stimulus .take

/-- The moves that a fair schedule has to make. -/
def duty : Nat → Move
  | 0 => .stimulus .take
  | 1 => .turn .desk
  | id + 2 => .turn (.watcher id)

/-- No duty ends a session whose client is there and may send commands. -/
theorem isOpen_duty (hopen : session.IsOpen) (hjoined : session.inbox.isOpen = true) (k : Nat) :
    (session.advance (duty k)).IsOpen ∧ (session.advance (duty k)).inbox.isOpen = true := by
  have hturn : ∀ actor, (session.advance (.turn actor)).IsOpen ∧
      (session.advance (.turn actor)).inbox.isOpen = true := by
    intro actor
    cases hstep : step actor session with
    | none =>
      rw [advance_turn_of_waits hstep]
      exact ⟨hopen, hjoined⟩
    | some next =>
      obtain ⟨hbeside, hnext⟩ := beside_of_step hopen hjoined hstep
      rw [advance_turn hstep]
      exact ⟨hnext, hbeside.joined.trans hjoined⟩
  match k with
  | 0 =>
    simp only [duty, advance, meet]
    split
    · next event outbox htake =>
      exact ⟨⟨(Outbox.take?_eq_some htake).2.2.2.trans hopen.receiving, hopen.running⟩, hjoined⟩
    · exact ⟨hopen, hjoined⟩
  | 1 => exact hturn .desk
  | id + 2 => exact hturn (.watcher id)

/-- A schedule in which every duty comes again and again: between two powers of two the duties
come one after the other, from the first. -/
def rounds (n : Nat) : Move := duty (n - 1 <<< n.log2)

/-- Every duty comes again and again. -/
theorem exists_rounds (k n : Nat) : ∃ m, n ≤ m ∧ rounds m = duty k :=
  (exists_round k n).imp fun _ hm => ⟨hm.1, congrArg duty hm.2⟩

/-- Some fair schedule keeps such a session open. -/
theorem exists_fair (hopen : session.IsOpen) (hjoined : session.inbox.isOpen = true) :
    ∃ schedule, Fair schedule ∧ ∀ n, (session.run (movesOf schedule n)).IsOpen := by
  refine ⟨rounds, ⟨fun actor n => ?_, exists_rounds 0⟩, fun n => ?_⟩
  · cases actor with
    | desk => exact exists_rounds 1 n
    | watcher id => exact exists_rounds (id + 2) n
  · have hall : (session.run (movesOf rounds n)).IsOpen ∧
        (session.run (movesOf rounds n)).inbox.isOpen = true := by
      induction n with
      | zero => exact ⟨hopen, hjoined⟩
      | succ n ih =>
        rw [run_movesOf_succ]
        exact isOpen_duty ih.1 ih.2 _
    exact hall.1

/-- A move is a turn that a party takes. -/
def Takes (session : Session) (move : Move) (party : Party) : Prop :=
  ∃ actor : Actor, actor.party = party ∧ move = .turn actor ∧
    ∃ next, step actor session = some next

/-- A turn that the party of a watcher takes is a turn of that watcher. -/
theorem Takes.eq_watcher (h : session.Takes (.turn actor) (.watcher id)) :
    actor = .watcher id := by
  obtain ⟨other, hparty, hturn, _⟩ := h
  cases hturn
  cases actor with
  | desk => cases hparty
  | watcher => exact congrArg Actor.watcher (Party.watcher.inj hparty)

/-- A party that is in the line takes its turn or keeps its place. -/
theorem Kept.takes_or_keeps (h : session.Kept) (hopen : (session.advance move).IsOpen)
    (hmem : party ∈ session.outbox.line) :
    session.Takes move party ∨
      Outbox.Keeps party (session.Takes move) session.outbox (session.advance move).outbox := by
  rcases h.queued.advance_cases hopen with ⟨actor, rfl, hstep⟩ | ⟨haligned, hwaits⟩
  · by_cases hown : actor.party = party
    · exact .inl ⟨actor, hown, rfl, _, hstep⟩
    · have hneeds := (h.needsPlace_of_ne hstep hopen (Ne.symm hown)).trans
        ((h.queued.mem party).1 hmem)
      refine .inr ((lined_of_step h.queued hstep hopen).keeps h.queued.orderly (Ne.symm hown)
        hneeds ?_)
      rintro acting ⟨other, rfl, hturn, _⟩
      cases hturn
      rfl
  · refine .inr (Outbox.keeps_of_line hmem haligned.line (haligned.granted party) ?_)
    rintro acting ⟨actor, _, hturn, next, hstep⟩
    rw [hwaits actor hturn] at hstep
    cases hstep

/-- What a watcher holds stays until its turn, in which it puts the first event. -/
theorem Kept.held_advance (h : session.Kept) (hopen : (session.advance move).IsOpen)
    (hholds : session.held (.watcher id) ≠ []) :
    (session.advance move).held (.watcher id) = (session.held (.watcher id)).tail ∨
      (session.advance move).held (.watcher id) = session.held (.watcher id) ∧
        ¬ session.Takes move (.watcher id) := by
  rcases h.queued.advance_cases hopen with ⟨actor, rfl, hstep⟩ | ⟨haligned, hwaits⟩
  · by_cases hown : actor = .watcher id
    · subst hown
      obtain ⟨event, _, hheld⟩ := held_of_watcherStep hstep h.queued.receiving hholds
      exact .inl (by rw [hheld, List.tail_cons])
    · exact .inr ⟨h.held_of_ne hstep hopen (Ne.symm hown), fun htakes => hown htakes.eq_watcher⟩
  · refine .inr ⟨haligned.held_eq _, ?_⟩
    rintro ⟨actor, _, hturn, next, hstep⟩
    rw [hwaits actor hturn] at hstep
    cases hstep

section Fair

variable {schedule : Nat → Move} (h : session.Kept) (hfair : Fair schedule)
  (hopen : ∀ n, (session.run (movesOf schedule n)).IsOpen)
include h hfair hopen

/-- Under a fair schedule the line before the outbox keeps moving. -/
theorem flows_of_fair : Outbox.Flows (fun n => (session.run (movesOf schedule n)).outbox)
    fun n => (session.run (movesOf schedule n)).Takes (schedule n) where
  keeps n party hmem := by
    have hnext := run_movesOf_succ session schedule n
    rw [hnext]
    exact (h.run (hopen n)).takes_or_keeps (hnext ▸ hopen (n + 1)) hmem
  frees n := by
    obtain ⟨m, hm, htake⟩ := hfair.takes n
    refine ⟨m, hm, fun first hhead => ?_⟩
    have hkept := h.run (hopen m)
    rw [run_movesOf_succ, htake]
    exact hkept.queued.granted_of_take hkept.roomy hhead
  turns party n := by
    have hactor : ∀ actor : Actor, ∃ m, n ≤ m ∧
        (actor.party ∈ (session.run (movesOf schedule m)).outbox.granted →
          (session.run (movesOf schedule m)).Takes (schedule m) actor.party) := by
      intro actor
      obtain ⟨m, hm, hturn⟩ := hfair.turns actor n
      exact ⟨m, hm, fun hgranted =>
        ⟨actor, rfl, hturn, (h.run (hopen m)).queued.step_of_granted hgranted⟩⟩
    cases party with
    | desk => exact hactor .desk
    | watcher id => exact hactor (.watcher id)
    | reader =>
      -- No lines come to the session, so nobody reads any.
      refine ⟨n, Nat.le_refl n, fun hgranted => ?_⟩
      have hneeds := ((h.run (hopen n)).queued.mem .reader).1 (List.mem_append_left _ hgranted)
      cases hneeds

/-- Under a fair schedule every watcher puts what it holds. -/
theorem exists_held_eq_nil_of_fair (id : WatcherId) :
    ∃ n, (session.run (movesOf schedule n)).held (.watcher id) = [] := by
  refine (exists_of_rank (P := fun _ => True)
    (Q := fun n => (session.run (movesOf schedule n)).held (.watcher id) = [])
    (fun n => ((session.run (movesOf schedule n)).held (.watcher id)).length) (fun n _ => ?_)
    (n := 0) trivial).imp fun _ hm => hm.2
  by_cases hnone : (session.run (movesOf schedule n)).held (.watcher id) = []
  · exact .inl ⟨n, Nat.le_refl n, hnone⟩
  -- It is in the line, and with its turn it holds an event less.
  have hmem : Party.watcher id ∈ (session.run (movesOf schedule n)).outbox.line := by
    rw [(h.run (hopen n)).queued.mem, needsPlace, List.isEmpty_eq_false_iff.2 hnone]
    rfl
  obtain ⟨m, hm, hput⟩ := exists_of_move
    (P := fun m => (session.run (movesOf schedule m)).held (.watcher id) =
      (session.run (movesOf schedule n)).held (.watcher id))
    (Q := fun m => (session.run (movesOf schedule m)).held (.watcher id) =
      ((session.run (movesOf schedule n)).held (.watcher id)).tail)
    ((flows_of_fair h hfair hopen).exists_takes hmem) (fun m hm => by
      have hnext := run_movesOf_succ session schedule m
      have hput := (h.run (hopen m)).held_advance (hnext ▸ hopen (m + 1)) (hm ▸ hnone)
      rwa [← hnext, hm] at hput) rfl
  refine .inr ⟨m, hm, trivial, ?_⟩
  rw [hput, List.length_tail]
  exact Nat.sub_one_lt (mt List.length_eq_zero_iff.1 hnone)

end Fair

/-- Under a fair schedule a watcher puts what it holds before anything else. -/
theorem Kept.exists_putBy_of_fair (h : session.Kept) {schedule : Nat → Move}
    (hfair : Fair schedule) (hopen : ∀ n, (session.run (movesOf schedule n)).IsOpen)
    (id : WatcherId) : ∃ n,
      session.held (.watcher id) <+:
        putBy (.watcher id) (session.history (movesOf schedule n)) := by
  obtain ⟨n, hnone⟩ := exists_held_eq_nil_of_fair h hfair hopen id
  have hbefore := h.held_prefix_run id (hopen n)
  rw [hnone, List.append_nil] at hbefore
  exact ⟨n, hbefore⟩

end Session

end TriggerDesk
