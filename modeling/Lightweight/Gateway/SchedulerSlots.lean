import Mathlib.Data.List.Perm.Basic
import Mathlib.Data.List.Nodup
import Lightweight.Gateway.SchedulerSteps

/-! Every busy slot has exactly one holder: a live permit, or a ticket that was sent the slot and has
neither claimed it nor given it back. -/

namespace Lightweight.Gateway

open Transition

/-- The slots that sit in tickets' channels. -/
def unclaimed (tickets : List Ticket) : List Nat := tickets.filterMap Ticket.slot

/-- The slot book as a whole. A waiter's ticket is there and has an empty channel, since it leaves
the queue before its receiver goes and its only sender is in the queue. -/
structure Sound (running : List Running) (waiting : List Waiter) (nextId : Nat)
    (tickets : List Ticket) (permits : List Nat) : Prop where
  held : (running.map Running.id).Perm (permits ++ unclaimed tickets)
  distinct : (running.map Running.id).Nodup
  runningBound : ∀ r ∈ running, r.id ≤ nextId
  ticketIds : (tickets.map Ticket.id).Nodup
  ticketBound : ∀ t ∈ tickets, t.id ≤ nextId
  waiterIds : (waiting.map Waiter.id).Nodup
  waiterBound : ∀ x ∈ waiting, x.id ≤ nextId
  listening : ∀ x ∈ waiting, x.id ∈ tickets.map Ticket.id
  silent : ∀ x ∈ waiting, ∀ t ∈ tickets, t.id = x.id →
    t.slot = none ∧ t.taken = false ∧ t.closing = false
  takenRead : ∀ t ∈ tickets, t.taken = true → t.slot = none

def World.Sound (w : World) : Prop :=
  Gateway.Sound w.running w.waiting w.sched.inner.nextId w.tickets w.permits

theorem map_eraseP_key {α : Type} (key : α → Nat) (xs : List α) (id : Nat) :
    (xs.eraseP fun x => key x == id).map key = (xs.map key).erase id := by
  rw [List.erase_eq_eraseP', List.eraseP_map]
  rfl

/-- Changing the one ticket with an identifier, up to the order of the table. -/
theorem update_perm {tickets : List Ticket} {ticket : Ticket} (change : Ticket → Ticket)
    (ids : (tickets.map Ticket.id).Nodup) (member : ticket ∈ tickets) :
    (tickets.map fun t => if t.id == ticket.id then change t else t).Perm
      (change ticket :: tickets.erase ticket) := by
  have same := List.perm_cons_erase member
  have split := (same.map Ticket.id).nodup_iff.mp ids
  simp only [List.map_cons, List.nodup_cons] at split
  refine (same.map _).trans ?_
  have others : (tickets.erase ticket).map (fun t => if t.id == ticket.id then change t else t) =
      tickets.erase ticket := by
    refine (List.map_congr_left fun t inside => ?_).trans (List.map_id _)
    have other : t.id ≠ ticket.id := fun equal =>
      split.1 (equal ▸ List.mem_map_of_mem inside)
    simp [other]
  rw [List.map_cons, others]
  simp

namespace Sound

variable {running : List Running} {waiting : List Waiter} {nextId : Nat} {tickets : List Ticket}
  {permits : List Nat} {ticket : Ticket}

theorem perm_tickets {others : List Ticket} (same : tickets.Perm others)
    (sound : Sound running waiting nextId tickets permits) :
    Sound running waiting nextId others permits where
  held := sound.held.trans ((same.filterMap _).append_left permits)
  distinct := sound.distinct
  runningBound := sound.runningBound
  ticketIds := (same.map _).nodup_iff.mp sound.ticketIds
  ticketBound t member := sound.ticketBound t (same.mem_iff.mpr member)
  waiterIds := sound.waiterIds
  waiterBound := sound.waiterBound
  listening x queued := (same.map _).mem_iff.mp (sound.listening x queued)
  silent x queued t member := sound.silent x queued t (same.mem_iff.mpr member)
  takenRead t member := sound.takenRead t (same.mem_iff.mpr member)

theorem later {greater : Nat} (sound : Sound running waiting nextId tickets permits)
    (le : nextId ≤ greater) : Sound running waiting greater tickets permits :=
  { sound with
    runningBound := fun r member => le_trans (sound.runningBound r member) le
    ticketBound := fun t member => le_trans (sound.ticketBound t member) le
    waiterBound := fun x member => le_trans (sound.waiterBound x member) le }

theorem fewer_waiting {rest : List Waiter} (sound : Sound running waiting nextId tickets permits)
    (sub : rest.Sublist waiting) : Sound running rest nextId tickets permits :=
  { sound with
    waiterIds := sound.waiterIds.sublist (sub.map _)
    waiterBound := fun x member => sound.waiterBound x (sub.subset member)
    listening := fun x member => sound.listening x (sub.subset member)
    silent := fun x member => sound.silent x (sub.subset member) }

/-- Only the identifiers of running entries are part of the book. -/
theorem relabel {others : List Running} (sound : Sound running waiting nextId tickets permits)
    (same : others.map Running.id = running.map Running.id) :
    Sound others waiting nextId tickets permits where
  held := same ▸ sound.held
  distinct := same ▸ sound.distinct
  runningBound r member := by
    have inside : r.id ∈ running.map Running.id := same ▸ List.mem_map_of_mem member
    obtain ⟨old, present, equal⟩ := List.mem_map.mp inside
    exact equal ▸ sound.runningBound old present
  ticketIds := sound.ticketIds
  ticketBound := sound.ticketBound
  waiterIds := sound.waiterIds
  waiterBound := sound.waiterBound
  listening := sound.listening
  silent := sound.silent
  takenRead := sound.takenRead

theorem fresh_running (sound : Sound running waiting nextId tickets permits) :
    nextId + 1 ∉ running.map Running.id := by
  intro inside
  obtain ⟨r, member, equal⟩ := List.mem_map.mp inside
  have bound := sound.runningBound r member
  omega

theorem erase_fresh {entry : Running} (sound : Sound running waiting nextId tickets permits)
    (id : entry.id = nextId + 1) :
    (running ++ [entry]).eraseP (fun r => r.id == nextId + 1) = running := by
  rw [List.eraseP_append_right]
  · simp [id]
  · intro r member equal
    exact sound.fresh_running (List.mem_map.mpr ⟨r, member, by simpa using equal⟩)

/-- A new running entry whose identifier has one holder. -/
theorem reserve {others : List Ticket} {held : List Nat} {entry : Running}
    (sound : Sound running waiting nextId tickets permits) (id : entry.id = nextId + 1)
    (ids : others.map Ticket.id = tickets.map Ticket.id)
    (holder : (held ++ unclaimed others).Perm ((nextId + 1) :: (permits ++ unclaimed tickets)))
    (silent : ∀ x ∈ waiting, ∀ t ∈ others, t.id = x.id →
      t.slot = none ∧ t.taken = false ∧ t.closing = false)
    (takenRead : ∀ t ∈ others, t.taken = true → t.slot = none) :
    Sound (running ++ [entry]) waiting (nextId + 1) others held where
  held := by
    have grown : ((running ++ [entry]).map Running.id).Perm
        ((nextId + 1) :: running.map Running.id) := by
      simp [id, List.perm_append_singleton]
    exact grown.trans ((sound.held.cons _).trans holder.symm)
  distinct := by
    have grown : ((running ++ [entry]).map Running.id).Perm
        ((nextId + 1) :: running.map Running.id) := by
      simp [id, List.perm_append_singleton]
    exact grown.nodup_iff.mpr (List.nodup_cons.mpr ⟨sound.fresh_running, sound.distinct⟩)
  runningBound r member := by
    rcases List.mem_append.mp member with member | member
    · exact le_trans (sound.runningBound r member) (Nat.le_succ _)
    · rw [List.mem_singleton.mp member, id]
  ticketIds := ids ▸ sound.ticketIds
  ticketBound t member := by
    have inside : t.id ∈ tickets.map Ticket.id := ids ▸ List.mem_map_of_mem member
    obtain ⟨old, present, equal⟩ := List.mem_map.mp inside
    exact equal ▸ le_trans (sound.ticketBound old present) (Nat.le_succ _)
  waiterIds := sound.waiterIds
  waiterBound x member := le_trans (sound.waiterBound x member) (Nat.le_succ _)
  listening x queued := ids ▸ sound.listening x queued
  silent := silent
  takenRead := takenRead

theorem admitted {entry : Running} (sound : Sound running waiting nextId tickets permits)
    (id : entry.id = nextId + 1) :
    Sound (running ++ [entry]) waiting (nextId + 1) tickets ((nextId + 1) :: permits) :=
  sound.reserve id rfl (List.Perm.refl _) sound.silent sound.takenRead

theorem send {entry : Running} (sound : Sound running waiting nextId (ticket :: tickets) permits)
    (id : entry.id = nextId + 1) (popped : ticket.id ∉ waiting.map Waiter.id)
    (empty : ticket.slot = none) (untaken : ticket.taken = false) :
    Sound (running ++ [entry]) waiting (nextId + 1)
      ({ ticket with slot := some (nextId + 1) } :: tickets) permits := by
  refine sound.reserve id rfl ?_ ?_ ?_
  · simp only [unclaimed, List.filterMap_cons, empty]
    exact List.perm_middle
  · intro x queued t member same
    rcases List.mem_cons.mp member with rfl | member
    · exact absurd (List.mem_map.mpr ⟨x, queued, same.symm⟩) popped
    · exact sound.silent x queued t (List.mem_cons_of_mem _ member) same
  · intro t member taken
    rcases List.mem_cons.mp member with rfl | member
    · simp [untaken] at taken
    · exact sound.takenRead t (List.mem_cons_of_mem _ member) taken

theorem push {waiter : Waiter} (sound : Sound running waiting nextId tickets permits)
    (id : waiter.id = nextId + 1) :
    Sound running (waiting ++ [waiter]) (nextId + 1) (waiter.ticket :: tickets) permits where
  held := by simpa [unclaimed, Waiter.ticket] using sound.held
  distinct := sound.distinct
  runningBound r member := le_trans (sound.runningBound r member) (Nat.le_succ _)
  ticketIds := by
    refine List.nodup_cons.mpr ⟨?_, sound.ticketIds⟩
    intro inside
    obtain ⟨t, member, equal⟩ := List.mem_map.mp inside
    have bound := sound.ticketBound t member
    simp only [Waiter.ticket] at equal
    omega
  ticketBound t member := by
    rcases List.mem_cons.mp member with rfl | member
    · exact le_of_eq id
    · exact le_trans (sound.ticketBound t member) (Nat.le_succ _)
  waiterIds := by
    rw [List.map_append, List.nodup_append]
    refine ⟨sound.waiterIds, by simp, ?_⟩
    intro a inside b same equal
    obtain ⟨x, member, rfl⟩ := List.mem_map.mp inside
    simp only [List.map_cons, List.map_nil, List.mem_singleton] at same
    have bound := sound.waiterBound x member
    omega
  waiterBound x member := by
    rcases List.mem_append.mp member with member | member
    · exact le_trans (sound.waiterBound x member) (Nat.le_succ _)
    · rw [List.mem_singleton.mp member, id]
  listening x queued := by
    rcases List.mem_append.mp queued with queued | queued
    · exact List.mem_cons_of_mem _ (sound.listening x queued)
    · rw [List.mem_singleton.mp queued]
      exact List.mem_cons_self
  silent x queued t member same := by
    rcases List.mem_append.mp queued with queued | queued
    · rcases List.mem_cons.mp member with rfl | member
      · have bound := sound.waiterBound x queued
        simp only [Waiter.ticket] at same
        omega
      · exact sound.silent x queued t member same
    · rcases List.mem_cons.mp member with rfl | member
      · exact ⟨rfl, rfl, rfl⟩
      · have bound := sound.ticketBound t member
        rw [List.mem_singleton.mp queued] at same
        omega
  takenRead t member taken := by
    rcases List.mem_cons.mp member with rfl | member
    · simp [Waiter.ticket] at taken
    · exact sound.takenRead t member taken

theorem unhold {rest : List Nat} {slot : Nat}
    (sound : Sound running waiting nextId tickets permits) {others : List Ticket}
    (sub : others.Sublist tickets) (listening : ∀ x ∈ waiting, x.id ∈ others.map Ticket.id)
    (holder : (permits ++ unclaimed tickets).Perm (slot :: (rest ++ unclaimed others))) :
    Sound (running.eraseP fun r => r.id == slot) waiting nextId others rest := by
  have ids : (running.eraseP fun r => r.id == slot).map Running.id =
      (running.map Running.id).erase slot := map_eraseP_key Running.id running slot
  have sublist : (running.eraseP fun r => r.id == slot).Sublist running := List.eraseP_sublist
  exact {
    held := by
      rw [ids]
      simpa using (sound.held.trans holder).erase slot
    distinct := sound.distinct.sublist (sublist.map _)
    runningBound := fun r member => sound.runningBound r (sublist.subset member)
    ticketIds := sound.ticketIds.sublist (sub.map _)
    ticketBound := fun t member => sound.ticketBound t (sub.subset member)
    waiterIds := sound.waiterIds
    waiterBound := sound.waiterBound
    listening := listening
    silent := fun x queued t member => sound.silent x queued t (sub.subset member)
    takenRead := fun t member => sound.takenRead t (sub.subset member) }

theorem give_back_permit {slot : Nat} (sound : Sound running waiting nextId tickets permits)
    (live : slot ∈ permits) :
    Sound (running.eraseP fun r => r.id == slot) waiting nextId tickets (permits.erase slot) :=
  sound.unhold (List.Sublist.refl _) sound.listening ((List.perm_cons_erase live).append_right _)

/-- The other tickets still cover the queue once a ticket that is not queued is gone. -/
theorem listening_tail (sound : Sound running waiting nextId (ticket :: tickets) permits)
    (absent : ticket.id ∉ waiting.map Waiter.id) : ∀ x ∈ waiting, x.id ∈ tickets.map Ticket.id := by
  intro x queued
  rcases List.mem_cons.mp (sound.listening x queued) with same | inside
  · exact absurd (List.mem_map.mpr ⟨x, queued, same⟩) absent
  · exact inside

theorem give_back_ticket {slot : Nat}
    (sound : Sound running waiting nextId (ticket :: tickets) permits)
    (sent : ticket.slot = some slot) :
    Sound (running.eraseP fun r => r.id == slot) waiting nextId tickets permits := by
  have absent : ticket.id ∉ waiting.map Waiter.id := by
    intro inside
    obtain ⟨x, queued, same⟩ := List.mem_map.mp inside
    have empty := (sound.silent x queued ticket List.mem_cons_self same.symm).1
    simp [sent] at empty
  refine sound.unhold (List.sublist_cons_self _ _) (sound.listening_tail absent) ?_
  simp only [unclaimed, List.filterMap_cons, sent]
  exact List.perm_middle

theorem forget_ticket (sound : Sound running waiting nextId (ticket :: tickets) permits)
    (empty : ticket.slot = none) (absent : ticket.id ∉ waiting.map Waiter.id) :
    Sound running waiting nextId tickets permits where
  held := by simpa [unclaimed, empty] using sound.held
  distinct := sound.distinct
  runningBound := sound.runningBound
  ticketIds := (List.nodup_cons.mp sound.ticketIds).2
  ticketBound t member := sound.ticketBound t (List.mem_cons_of_mem _ member)
  waiterIds := sound.waiterIds
  waiterBound := sound.waiterBound
  listening := sound.listening_tail absent
  silent x queued t member := sound.silent x queued t (List.mem_cons_of_mem _ member)
  takenRead t member := sound.takenRead t (List.mem_cons_of_mem _ member)

/-- Replacing a ticket by one with the same channel contents. -/
theorem retag {changed : Ticket} (sound : Sound running waiting nextId (ticket :: tickets) permits)
    (id : changed.id = ticket.id) (slot : changed.slot = ticket.slot)
    (taken : changed.taken = ticket.taken)
    (closing : changed.closing = ticket.closing ∨ ticket.id ∉ waiting.map Waiter.id) :
    Sound running waiting nextId (changed :: tickets) permits where
  held := by simpa [unclaimed, List.filterMap_cons, slot] using sound.held
  distinct := sound.distinct
  runningBound := sound.runningBound
  ticketIds := by simpa [id] using sound.ticketIds
  ticketBound t member := by
    rcases List.mem_cons.mp member with rfl | member
    · exact id ▸ sound.ticketBound ticket List.mem_cons_self
    · exact sound.ticketBound t (List.mem_cons_of_mem _ member)
  waiterIds := sound.waiterIds
  waiterBound := sound.waiterBound
  listening x queued := by simpa [id] using sound.listening x queued
  silent x queued t member same := by
    rcases List.mem_cons.mp member with rfl | member
    · have still := closing.resolve_right fun absent =>
        absent (List.mem_map.mpr ⟨x, queued, (id ▸ same).symm⟩)
      rw [slot, taken, still]
      exact sound.silent x queued ticket List.mem_cons_self (id ▸ same)
    · exact sound.silent x queued t (List.mem_cons_of_mem _ member) same
  takenRead t member read := by
    rcases List.mem_cons.mp member with rfl | member
    · rw [slot]
      exact sound.takenRead ticket List.mem_cons_self (taken ▸ read)
    · exact sound.takenRead t (List.mem_cons_of_mem _ member) read

/-- Reading the channel moves the slot from the ticket to a permit. -/
theorem claim {slot : Nat} (sound : Sound running waiting nextId (ticket :: tickets) permits)
    (sent : ticket.slot = some slot) :
    Sound running waiting nextId ({ ticket with slot := none, taken := true } :: tickets)
      (slot :: permits) where
  held := by
    refine sound.held.trans ?_
    simp only [unclaimed, List.filterMap_cons, sent]
    exact List.perm_middle
  distinct := sound.distinct
  runningBound := sound.runningBound
  ticketIds := sound.ticketIds
  ticketBound t member := by
    rcases List.mem_cons.mp member with rfl | member
    · exact sound.ticketBound ticket List.mem_cons_self
    · exact sound.ticketBound t (List.mem_cons_of_mem _ member)
  waiterIds := sound.waiterIds
  waiterBound := sound.waiterBound
  listening := sound.listening
  silent x queued t member same := by
    rcases List.mem_cons.mp member with rfl | member
    · have empty := (sound.silent x queued ticket List.mem_cons_self same).1
      simp [sent] at empty
    · exact sound.silent x queued t (List.mem_cons_of_mem _ member) same
  takenRead t member taken := by
    rcases List.mem_cons.mp member with rfl | member
    · rfl
    · exact sound.takenRead t (List.mem_cons_of_mem _ member) taken

end Sound

namespace World

variable {w : World}

theorem admitted_sound {sched : Scheduler} {band : Band} {slot : Nat} (sound : w.Sound)
    (taken : w.sched.takeFreeSlot band w.clock = some (sched, slot)) :
    ({ w with sched, permits := slot :: w.permits } : World).Sound := by
  obtain ⟨-, -, -, rfl, -, -, inner⟩ := Scheduler.takeFreeSlot_eq_some taken
  unfold World.Sound World.running World.waiting
  rw [inner]
  exact Gateway.Sound.admitted sound rfl

theorem enqueue_sound (sound : w.Sound) (band : Band) (peer : PeerKey) :
    (w.enqueue band peer).Sound :=
  Gateway.Sound.push sound rfl

theorem tryAdmit_sound (sound : w.Sound) : w.tryAdmit.Sound := by
  unfold tryAdmit
  split
  · exact admitted_sound sound ‹_›
  · exact sound

theorem admitOrEnqueue_sound (sound : w.Sound) (band : Band) (peer : PeerKey) :
    (w.admitOrEnqueue band peer).Sound := by
  unfold admitOrEnqueue
  split
  · exact admitted_sound sound ‹_›
  · exact enqueue_sound sound band peer

theorem updateTicket_sound {ticket : Ticket} {change : Ticket → Ticket} (sound : w.Sound)
    (member : ticket ∈ w.tickets) (id : (change ticket).id = ticket.id)
    (slot : (change ticket).slot = ticket.slot) (taken : (change ticket).taken = ticket.taken)
    (closing : (change ticket).closing = ticket.closing ∨
      ticket.id ∉ w.waiting.map Waiter.id) :
    (w.updateTicket ticket.id change).Sound := by
  have front := Gateway.Sound.perm_tickets (List.perm_cons_erase member) sound
  have changed := Gateway.Sound.retag front id slot taken closing
  exact changed.perm_tickets (update_perm change (Gateway.Sound.ticketIds sound) member).symm

theorem granted_sound {ticket : Ticket} {slot : Nat} (sound : w.Sound)
    (member : ticket ∈ w.tickets) (sent : ticket.slot = some slot) :
    (w.granted ticket slot).Sound := by
  have front := Gateway.Sound.perm_tickets (List.perm_cons_erase member) sound
  have claimed := Gateway.Sound.claim front sent
  exact claimed.perm_tickets (update_perm _ (Gateway.Sound.ticketIds sound) member).symm

/-- The waiter has left the queue, so sending to its ticket cannot overwrite another slot. -/
theorem handOver_sound {waiter : Waiter} (sound : w.Sound)
    (popped : waiter.id ∉ w.waiting.map Waiter.id)
    (silent : ∀ t ∈ w.tickets, t.id = waiter.id →
      t.slot = none ∧ t.taken = false ∧ t.closing = false) :
    (w.handOver waiter).1.Sound := by
  unfold handOver
  simp only [Scheduler.reserveRunning]
  split
  · rename_i received
    obtain ⟨ticket, member, same⟩ := List.any_eq_true.mp received
    have same : ticket.id = waiter.id := by simpa using same
    obtain ⟨empty, untaken, -⟩ := silent ticket member same
    have front := Gateway.Sound.perm_tickets (List.perm_cons_erase member) sound
    let entry : Running := ⟨w.sched.inner.nextId + 1, waiter.band, w.clock, none, 0⟩
    have id : entry.id = w.sched.inner.nextId + 1 := rfl
    have sent := Gateway.Sound.send front id (same ▸ popped) empty untaken
    rw [← same]
    exact sent.perm_tickets (update_perm _ (Gateway.Sound.ticketIds sound) member).symm
  · let entry : Running := ⟨w.sched.inner.nextId + 1, waiter.band, w.clock, none, 0⟩
    have gone : (w.sched.inner.running ++ [entry]).eraseP
        (fun r => r.id == w.sched.inner.nextId + 1) = w.sched.inner.running :=
      Gateway.Sound.erase_fresh sound rfl
    change Gateway.Sound ((w.sched.inner.running ++ [entry]).eraseP _) _ _ _ _
    rw [gone]
    exact Gateway.Sound.later sound (Nat.le_succ _)

theorem popped_sound {waiter : Waiter} {sched : Scheduler} (sound : w.Sound)
    (taken : w.sched.takeNext w.clock = some (waiter, sched)) :
    (({ w with sched } : World).handOver waiter).1.Sound := by
  obtain ⟨front, back, -, queue, inner, -, -⟩ := Scheduler.takeNext_eq_some taken
  have member : waiter ∈ w.waiting := by
    unfold World.waiting
    rw [queue]
    simp
  have sub : (front ++ back).Sublist w.waiting := by
    unfold World.waiting
    rw [queue]
    exact (List.sublist_cons_self _ _).append_left front
  apply handOver_sound
  · unfold World.Sound World.running World.waiting
    rw [inner]
    exact Gateway.Sound.fewer_waiting sound sub
  · have ids := Gateway.Sound.waiterIds sound
    unfold World.waiting at ids
    rw [queue] at ids
    have middle : (waiter :: (front ++ back)).Perm (front ++ waiter :: back) :=
      List.perm_middle.symm
    have split := (middle.map Waiter.id).nodup_iff.mpr ids
    unfold World.waiting
    rw [inner]
    exact (List.nodup_cons.mp split).1
  · intro t present same
    exact Gateway.Sound.silent sound waiter member t present same

theorem turn_sound (sound : w.Sound) (holder : Holder) : (w.turn holder).Sound := by
  have drained (limit : Nat) : (w.drainTurn limit).Sound := by
    unfold drainTurn
    split
    · split
      · exact sound
      · exact popped_sound sound ‹_›
    · exact sound
  cases holder with
  | setCapacity capacity => exact drained capacity
  | resume => exact drained w.capacity
  | release =>
      change w.releaseTurn.Sound
      unfold releaseTurn
      split
      · exact sound
      · have handed := popped_sound sound ‹_›
        dsimp only
        split
        · exact handed
        · exact handed

theorem release_sound {slot : Nat}
    (freed : ({ w with sched := w.sched.removeRunning slot } : World).Sound) :
    (w.release slot).Sound := by
  unfold release
  dsimp only
  split
  · exact freed
  · exact freed

theorem dropTicket_sound {ticket : Ticket} (sound : w.Sound) (member : ticket ∈ w.tickets) :
    (w.dropTicket ticket).Sound := by
  have front := Gateway.Sound.perm_tickets (List.perm_cons_erase member) sound
  unfold dropTicket
  split
  · rename_i taken
    have absent : ticket.id ∉ w.waiting.map Waiter.id := by
      intro inside
      obtain ⟨x, queued, same⟩ := List.mem_map.mp inside
      have untaken := (Gateway.Sound.silent sound x queued ticket member same.symm).2.1
      simp [taken] at untaken
    exact Gateway.Sound.forget_ticket front (Gateway.Sound.takenRead sound ticket member taken) absent
  · split
    · rename_i sched left
      obtain ⟨⟨x, queued, same⟩, -, -, inner⟩ := Scheduler.withdraw_eq_some left
      have empty := (Gateway.Sound.silent sound x queued ticket member same.symm).1
      have sub : (w.sched.inner.waiting.eraseP fun x => x.id == ticket.id).Sublist w.waiting :=
        List.eraseP_sublist
      have fewer := Gateway.Sound.fewer_waiting front sub
      unfold World.Sound World.running World.waiting
      rw [inner]
      refine fewer.forget_ticket empty ?_
      rw [map_eraseP_key Waiter.id]
      exact (Gateway.Sound.waiterIds sound).not_mem_erase
    · rename_i staying
      refine updateTicket_sound sound member rfl rfl rfl (.inr fun inside => ?_)
      obtain ⟨x, queued, same⟩ := List.mem_map.mp inside
      exact Scheduler.withdraw_eq_none staying x queued same

theorem closeTicket_sound {ticket : Ticket} (sound : w.Sound) (member : ticket ∈ w.tickets)
    (closing : ticket.closing = true) :
    (w.closeTicket ticket).Sound := by
  have absent : ticket.id ∉ w.waiting.map Waiter.id := by
    intro inside
    obtain ⟨x, queued, same⟩ := List.mem_map.mp inside
    have opened := (Gateway.Sound.silent sound x queued ticket member same.symm).2.2
    simp [closing] at opened
  have front := Gateway.Sound.perm_tickets (List.perm_cons_erase member) sound
  unfold closeTicket
  dsimp only
  split
  · rename_i slot sent
    exact release_sound (Gateway.Sound.give_back_ticket front sent)
  · rename_i empty
    exact Gateway.Sound.forget_ticket front empty absent

theorem updateRunning_sound {slot : Nat} {change : Running → Running} (sound : w.Sound)
    (id : ∀ r, (change r).id = r.id) :
    ({ w with sched := w.sched.updateRunning slot change } : World).Sound := by
  refine Gateway.Sound.relabel sound ?_
  change (List.map _ (List.map _ _)) = _
  rw [List.map_map]
  refine List.map_congr_left fun r _ => ?_
  simp only [Function.comp_apply]
  split
  · exact id r
  · rfl

end World

theorem step_sound {w t : World} {action : Action} (sound : w.Sound)
    (stepped : step w action = some t) : t.Sound := by
  cases action with
  | tick elapsed =>
      obtain ⟨-, rfl⟩ := guardedBy_eq_some.mp stepped
      exact sound
  | tryAdmit =>
      obtain ⟨-, rfl⟩ := guardedBy_eq_some.mp stepped
      exact World.tryAdmit_sound sound
  | admitOrEnqueue band peer =>
      obtain ⟨-, rfl⟩ := guardedBy_eq_some.mp stepped
      exact World.admitOrEnqueue_sound sound band peer
  | enqueue band peer =>
      obtain ⟨-, rfl⟩ := guardedBy_eq_some.mp stepped
      exact World.enqueue_sound sound band peer
  | storeCapacity capacity =>
      obtain ⟨-, rfl⟩ := guardedBy_eq_some.mp stepped
      exact sound
  | lockCapacity capacity =>
      obtain ⟨-, rfl⟩ := guardedBy_eq_some.mp stepped
      unfold World.lockCapacity
      split <;> exact sound
  | setBandLimits limits =>
      cases stepped
      exact sound
  | pause =>
      obtain ⟨-, rfl⟩ := guardedBy_eq_some.mp stepped
      exact sound
  | dropGuard =>
      obtain ⟨-, rfl⟩ := guardedBy_eq_some.mp stepped
      exact sound
  | turn =>
      obtain ⟨holder, -, rfl⟩ := Option.map_eq_some_iff.mp stepped
      exact World.turn_sound sound holder
  | dropPermit slot =>
      obtain ⟨enabled, rfl⟩ := guardedBy_eq_some.mp stepped
      simp only [Bool.and_eq_true, List.contains_iff_mem] at enabled
      exact World.release_sound (Sound.give_back_permit sound enabled.2)
  | claim id =>
      obtain ⟨ticket, found, rest⟩ := Option.bind_eq_some_iff.mp stepped
      obtain ⟨slot, sent, rest⟩ := Option.bind_eq_some_iff.mp rest
      obtain ⟨-, rfl⟩ := guardedBy_eq_some.mp rest
      exact World.granted_sound sound (World.ticket?_eq_some found).1 sent
  | timedOut id =>
      obtain ⟨ticket, found, rest⟩ := Option.bind_eq_some_iff.mp stepped
      obtain ⟨-, rfl⟩ := guardedBy_eq_some.mp rest
      exact World.updateTicket_sound sound (World.ticket?_eq_some found).1 rfl rfl rfl (.inl rfl)
  | dropTicket id =>
      obtain ⟨ticket, found, rest⟩ := Option.bind_eq_some_iff.mp stepped
      obtain ⟨-, rfl⟩ := guardedBy_eq_some.mp rest
      exact World.dropTicket_sound sound (World.ticket?_eq_some found).1
  | closeTicket id =>
      obtain ⟨ticket, found, rest⟩ := Option.bind_eq_some_iff.mp stepped
      obtain ⟨enabled, rfl⟩ := guardedBy_eq_some.mp rest
      simp only [Bool.and_eq_true] at enabled
      exact World.closeTicket_sound sound (World.ticket?_eq_some found).1 enabled.2
  | describe slot id model promptTokens =>
      obtain ⟨-, rfl⟩ := guardedBy_eq_some.mp stepped
      exact World.updateRunning_sound sound fun _ => rfl
  | inBand slot band =>
      obtain ⟨-, rfl⟩ := guardedBy_eq_some.mp stepped
      exact World.updateRunning_sound sound fun _ => rfl

theorem new_sound (capacity : Nat) (config : SchedulerConfig) (clock : Nat) :
    (World.new capacity config clock).Sound where
  held := List.Perm.refl _
  distinct := List.nodup_nil
  runningBound _ member := absurd member List.not_mem_nil
  ticketIds := List.nodup_nil
  ticketBound _ member := absurd member List.not_mem_nil
  waiterIds := List.nodup_nil
  waiterBound _ member := absurd member List.not_mem_nil
  listening _ member := absurd member List.not_mem_nil
  silent _ member := absurd member List.not_mem_nil
  takenRead _ member := absurd member List.not_mem_nil

theorem reached_sound {ok : World → Action → Prop} {capacity clock : Nat}
    {config : SchedulerConfig} {w : World}
    (reached : Reaches step ok (World.new capacity config clock) w) : w.Sound :=
  reached.invariant World.Sound (new_sound capacity config clock)
    fun _ _ _ _ sound stepped => step_sound sound stepped

/-- Slots are neither leaked nor duplicated, whatever the order of admissions, hand-overs, claims,
timeouts and drops; when every permit and every ticket is gone, so is every running entry. -/
theorem slots_conserved {capacity clock : Nat} {config : SchedulerConfig} {w : World}
    (reached : Reaches step Always (World.new capacity config clock) w) :
    (w.running.map Running.id).Perm (w.permits ++ unclaimed w.tickets) ∧
      (w.running.map Running.id).Nodup ∧
      (w.permits = [] → w.tickets = [] → w.running = []) := by
  have sound := reached_sound reached
  refine ⟨sound.held, sound.distinct, ?_⟩
  intro permits tickets
  have held := sound.held
  rw [permits, tickets] at held
  exact List.map_eq_nil_iff.mp (List.perm_nil.mp held)

/-- The slot handed to a ticket that has not claimed it is held by that ticket alone. -/
theorem slots_conserved_in_channel :
    ∃ w : World, w.permits = [] ∧ unclaimed w.tickets = [3] ∧
      (w.running.map Running.id).Perm (w.permits ++ unclaimed w.tickets) := by
  have ran : (run step (World.new 1 .default 0)
      [.tryAdmit, .admitOrEnqueue .bulk ⟨none⟩, .dropPermit 1, .turn]).any (fun w =>
        decide (w.permits = [] ∧ unclaimed w.tickets = [3])) = true := by decide
  obtain ⟨w, ran, held⟩ := (Option.any_eq_true _ _).mp ran
  obtain ⟨permits, tickets⟩ := of_decide_eq_true held
  exact ⟨w, permits, tickets, (slots_conserved (run_reaches ran)).1⟩

end Lightweight.Gateway
