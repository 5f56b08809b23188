import TriggerDesk.Proofs.Outbox.Excerpts
import TriggerDesk.Proofs.Session.History
import TriggerDesk.Proofs.Session.Queue
import TriggerDesk.Proofs.Session.Replies
import TriggerDesk.Proofs.Session.Shares

/-!
# Places in a share

Parties that work for one listing share the outbox with all others, and wait for others to be
served. In a session that has only the share of the listing they stand in a line of their own, in
the same order, so they do not wait there when they do not in the whole session
(`Abreast.granted`). Turns keep it so, whether they are for the listing (`Abreast.of_own`) or not
(`Abreast.of_stranger`).
-/

namespace TriggerDesk

open Market TriggerDesk.Order Feed

namespace Session

variable {owner : String → Listing} {listing : Listing} {session next whole part after : Session}
  {id : WatcherId} {watcher : Watcher} {party name : Party}

/-- The party of the share that a party is, if the share has it. -/
def twin? (listing : Listing) (session : Session) : Party → Option Party
  | .desk => some .desk
  | .reader => none
  | .watcher id =>
    if session.listings[id]? = some listing then some (.watcher (session.rank listing id))
    else none

/-- A watcher of the listing is the one of its rank in the share. -/
theorem twin?_watcher (hwatcher : session.watchers[id]? = some watcher)
    (hlisting : watcher.listing = listing) :
    session.twin? listing (.watcher id) = some (.watcher (session.rank listing id)) :=
  if_pos (hlisting ▸ listings_of_watcher hwatcher)

/-- With the same listings of watchers every party has the same twin. -/
theorem twin?_congr (h : next.listings = session.listings) :
    next.twin? listing = session.twin? listing := by
  funext party
  cases party with
  | desk | reader => rfl
  | watcher id => rw [twin?, twin?, h, rank_congr h]

/-- No two parties have the same twin. -/
theorem distinct_twin? (listing : Listing) (session : Session) :
    Outbox.Distinct (session.twin? listing) := by
  intro first second name hfirst hsecond
  cases first with
  | reader => cases hfirst
  | desk =>
    cases second with
    | desk => rfl
    | reader => cases hsecond
    | watcher other =>
      cases hfirst
      obtain ⟨_, hname⟩ := Option.ite_none_right_eq_some.1 hsecond
      cases hname
  | watcher id =>
    obtain ⟨hid, heq⟩ := Option.ite_none_right_eq_some.1 hfirst
    cases heq
    cases second with
    | desk | reader => cases hsecond
    | watcher other =>
      obtain ⟨hother, hname⟩ := Option.ite_none_right_eq_some.1 hsecond
      obtain ⟨watcher, hwatcher, hlisting⟩ := exists_watcher hid
      obtain ⟨found, hfound, hfollowed⟩ := exists_watcher hother
      exact congrArg Party.watcher
        (rank_inj hwatcher hlisting hfound hfollowed
          (Party.watcher.inj (Option.some.inj hname)).symm)

/-- Who has a twin keeps it when watchers are started. -/
theorem twin?_append {more : List Listing} (h : next.listings = session.listings ++ more)
    (party name : Party) (htwin : session.twin? listing party = some name) :
    next.twin? listing party = some name := by
  cases party with
  | desk => exact htwin
  | reader => cases htwin
  | watcher id =>
    obtain ⟨hid, hname⟩ := Option.ite_none_right_eq_some.1 htwin
    have hlength := (List.getElem?_eq_some_iff.1 hid).1
    have hle : id ≤ session.watchers.length := by
      rw [listings, List.length_map] at hlength
      exact Nat.le_of_lt hlength
    rw [twin?, h, List.getElem?_append_left hlength, if_pos hid, rank_append h hle]
    exact hname

/-- The share has no watchers but those of the listing. -/
theorem Share.exists_rank_eq (h : Share owner listing whole part) {place : WatcherId}
    (hwatcher : part.watchers[place]? = some watcher) :
    ∃ id, whole.watchers[id]? = some watcher ∧ watcher.listing = listing ∧
      whole.rank listing id = place := by
  -- The rank grows by one with each watcher of the listing, so it takes every value on its way.
  have hrank : ∀ n, place < whole.rank listing n → ∃ id found, whole.watchers[id]? = some found ∧
      found.listing = listing ∧ whole.rank listing id = place := by
    intro n
    induction n with
    | zero => exact fun hlt => absurd hlt (Nat.not_lt_zero _)
    | succ n ih =>
      intro hlt
      cases hfound : whole.watchers[n]? with
      | none =>
        have hlength : whole.listings.length ≤ n := by
          rw [listings, List.length_map]
          exact List.getElem?_eq_none_iff.1 hfound
        refine ih ?_
        rwa [rank, List.take_of_length_le (Nat.le_succ_of_le hlength),
          ← List.take_of_length_le hlength] at hlt
      | some found =>
        rw [rank_succ listing hfound] at hlt
        split at hlt
        · next hlisting =>
          rcases Nat.lt_succ_iff_lt_or_eq.1 hlt with hless | heq
          · exact ih hless
          · exact ⟨n, found, hfound, hlisting, heq.symm⟩
        · exact ih hlt
  have hlength := (List.getElem?_eq_some_iff.1 hwatcher).1
  rw [h.size] at hlength
  obtain ⟨id, found, hfound, hlisting, rfl⟩ := hrank _ hlength
  rw [h.watchers id found hfound hlisting] at hwatcher
  cases hwatcher
  exact ⟨id, hfound, hlisting, rfl⟩

/-- Who needs a place in the share is the twin of somebody who needs one. -/
theorem Share.exists_twin (h : Share owner listing whole part)
    (hdesk : part.desk.needsPlace = true → whole.desk.needsPlace = true)
    (hneeds : part.needsPlace false name = true) :
    ∃ party, whole.twin? listing party = some name ∧ whole.needsPlace false party = true := by
  cases name with
  | desk => exact ⟨.desk, rfl, hdesk hneeds⟩
  | reader => cases hneeds
  | watcher place =>
    cases hwatcher : part.watchers[place]? with
    | none =>
      rw [needsPlace, held, hwatcher] at hneeds
      cases hneeds
    | some watcher =>
      obtain ⟨id, hid, hlisting, rfl⟩ := h.exists_rank_eq hwatcher
      refine ⟨.watcher id, twin?_watcher hid hlisting, ?_⟩
      rwa [needsPlace, held_watcher hid, ← held_watcher hwatcher]

/-! ## Both lines -/

/-- The lines of both sessions are those of the parties that need places, and the one of the share
is an excerpt of the other. -/
structure Abreast (owner : String → Listing) (listing : Listing) (whole part : Session) :
    Prop where
  wholeQueued : whole.Queued false
  partQueued : part.Queued false
  excerpts : Outbox.Excerpts (fun event => owner event.oid = listing) (whole.twin? listing)
    whole.outbox part.outbox

namespace Abreast

/-- Who has a place in the whole session has one in the share. -/
theorem granted (h : Abreast owner listing whole part)
    (htwin : whole.twin? listing party = some name)
    (hneeds : part.needsPlace false name = whole.needsPlace false party)
    (hgranted : whole.outbox.standing party = .granted) :
    part.outbox.standing name = .granted := by
  have hmem := Outbox.mem_granted_of_standing hgranted
  have hline : name ∈ part.outbox.line :=
    (h.partQueued.mem name).2
      (hneeds.trans ((h.wholeQueued.mem party).1 (List.mem_append_left _ hmem)))
  exact Outbox.standing_eq_granted h.partQueued.receiving
    (h.excerpts.granted (distinct_twin? listing whole) htwin hmem hline)

/-- Somebody takes a turn in the whole session, and his twin does so in the share, if there is
one. -/
theorem of_turn {actor : Actor} (h : Abreast owner listing whole part)
    (hstep : step actor whole = some next) (hopen : next.IsOpen)
    (hshare : Share owner listing next after)
    (hdesk : after.desk.needsPlace = true → next.desk.needsPlace = true)
    (hafter : after.Queued false) (hcapacity : after.outbox.capacity = part.outbox.capacity)
    (htaken : after.outbox.taken = part.outbox.taken)
    (hline : after.outbox.line.Sublist
      ((whole.outbox.line.erase actor.party).filterMap (whole.twin? listing) ++
        (whole.twin? listing actor.party).toList)) :
    Abreast owner listing next after := by
  have hlined := lined_of_step h.wholeQueued hstep hopen
  obtain ⟨more, hlistings⟩ := listings_of_step hstep hopen.running
  -- Both lines come from the one where whoever takes the turn stands at the end.
  let line := whole.outbox.line.erase actor.party ++ [actor.party]
  have hnodup : (line.filterMap (next.twin? listing)).Nodup := by
    refine List.Nodup.filterMap (distinct_twin? listing next) (List.nodup_append.2
      ⟨h.wholeQueued.orderly.nodup.erase _, List.nodup_singleton _, ?_⟩)
    rintro other hother _ hself rfl
    exact h.wholeQueued.orderly.nodup.not_mem_erase (List.mem_singleton.1 hself ▸ hother)
  have hnext : (next.outbox.line.filterMap (next.twin? listing)).Sublist
      (line.filterMap (next.twin? listing)) := by
    refine (hlined.sublist.trans ((List.Sublist.refl _).append ?_)).filterMap _
    split
    · exact List.Sublist.refl _
    · exact List.nil_sublist _
  have hshown : after.outbox.line.Sublist (line.filterMap (next.twin? listing)) := by
    have hself : [actor.party].filterMap (whole.twin? listing) =
        (whole.twin? listing actor.party).toList := by
      cases htwin : whole.twin? listing actor.party with
      | none => exact List.filterMap_cons_none htwin
      | some name => exact List.filterMap_cons_some htwin
    rw [← hself, ← List.filterMap_append] at hline
    exact hline.trans (Outbox.filterMap_sublist (twin?_append hlistings) line)
  have hsubset : after.outbox.line ⊆ next.outbox.line.filterMap (next.twin? listing) := by
    intro name hname
    obtain ⟨party, htwin, hneeds⟩ := hshare.exists_twin hdesk ((hafter.mem name).1 hname)
    exact List.mem_filterMap.2 ⟨party, (hlined.queued.mem party).2 hneeds, htwin⟩
  exact {
    wholeQueued := hlined.queued
    partQueued := hafter
    excerpts := h.excerpts.of_turn hlined.orderly hafter.orderly hlined.capacity hcapacity
      ⟨_, (events_of_step hstep hopen).symm⟩ hshare.events (taken_of_step hstep hopen) htaken
      (Outbox.sublist_of_subset hnodup hshown hnext hsubset) }

/-- A turn that both sessions take. -/
theorem of_own {actor again : Actor} (h : Abreast owner listing whole part)
    (hstep : step actor whole = some next) (hopen : next.IsOpen)
    (hpart : step again part = some after) (hpartOpen : after.IsOpen)
    (htwin : whole.twin? listing actor.party = some again.party)
    (hshare : Share owner listing next after)
    (hdesk : after.desk.needsPlace = true → next.desk.needsPlace = true) :
    Abreast owner listing next after := by
  have hlined := lined_of_step h.partQueued hpart hpartOpen
  refine h.of_turn hstep hopen hshare hdesk hlined.queued hlined.capacity
    (taken_of_step hpart hpartOpen) (hlined.sublist.trans ?_)
  rw [htwin, Outbox.filterMap_erase (distinct_twin? listing whole) htwin]
  refine (h.excerpts.line.erase _).append ?_
  split
  · exact List.Sublist.refl _
  · exact List.nil_sublist _

/-- A turn of somebody who has no twin, or none that needs a place. -/
theorem of_stranger {actor : Actor} (h : Abreast owner listing whole part)
    (hstep : step actor whole = some next) (hopen : next.IsOpen)
    (htwin : ∀ name, whole.twin? listing actor.party = some name →
      part.needsPlace false name = false)
    (hshare : Share owner listing next part)
    (hdesk : part.desk.needsPlace = true → next.desk.needsPlace = true) :
    Abreast owner listing next part := by
  refine h.of_turn hstep hopen hshare hdesk h.partQueued rfl rfl ?_
  cases hname : whole.twin? listing actor.party with
  | none =>
    rw [Outbox.filterMap_erase_of_none hname, Option.toList_none, List.append_nil]
    exact h.excerpts.line
  | some name =>
    have hnot : name ∉ part.outbox.line := fun hmem =>
      Bool.false_ne_true ((htwin name hname).symm.trans ((h.partQueued.mem name).1 hmem))
    rw [Outbox.filterMap_erase (distinct_twin? listing whole) hname]
    have herased := h.excerpts.line.erase name
    rw [List.erase_of_not_mem hnot] at herased
    exact herased.trans (List.sublist_append_left _ _)

end Abreast

end Session

end TriggerDesk
