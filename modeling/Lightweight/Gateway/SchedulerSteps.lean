import Lightweight.Gateway.Scheduler
import Lightweight.Transition

/-! The scheduler together with everything that holds a piece of it: tickets, permits, pause guards
and calls of `set_capacity` under way. Each step is one critical section of the queue lock, or one
turn of a loop that runs under it.

The lock serialises everything but two things. A ticket reads its own channel without it, and
`set_capacity` stores the new count before it takes it. A store that lands inside a critical section
which reads the count at most once is indistinguishable from one that lands just before or just
after that section; `resume` reads the count at every turn of its loop, so a store may land between
two of its turns. -/

namespace Lightweight.Gateway

/-- `slot` is what the ticket's channel holds and nobody has read. `closing` is a ticket whose
`drop` has found it is no longer queued and is about to read the channel. -/
structure Ticket where
  id : Nat
  band : Band
  enqueued : Nat
  slot : Option Nat
  taken : Bool
  withdrawal : Withdrawal
  closing : Bool
  deriving DecidableEq, Repr

/-- The loop the lock's holder is in. `setCapacity` loops against its own argument. -/
inductive Holder where
  | setCapacity (capacity : Nat)
  | resume
  | release
  deriving DecidableEq, Repr

/-- `pending` are the counts stored by calls of `set_capacity` that have not taken the lock yet.
`clock` is the last instant read under the lock. -/
structure World where
  sched : Scheduler
  clock : Nat
  tickets : List Ticket
  permits : List Nat
  guards : Nat
  pending : List Nat
  holder : Option Holder
  deriving DecidableEq, Repr

def World.new (capacity : Nat) (config : SchedulerConfig) (clock : Nat) : World :=
  ⟨.new capacity config, clock, [], [], 0, [], none⟩

def World.running (w : World) : List Running := w.sched.inner.running
def World.waiting (w : World) : List Waiter := w.sched.inner.waiting
def World.paused (w : World) : Bool := w.sched.inner.paused
def World.capacity (w : World) : Nat := w.sched.capacity

def World.tryAdmit (w : World) : World :=
  match w.sched.takeFreeSlot .default w.clock with
  | some (sched, slot) => { w with sched, permits := slot :: w.permits }
  | none => w

/-- The ticket a new waiter's caller is given. -/
def Waiter.ticket (waiter : Waiter) : Ticket :=
  ⟨waiter.id, waiter.band, waiter.enqueued, none, false, .abandoned, false⟩

def World.enqueue (w : World) (band : Band) (peer : PeerKey) : World :=
  let (sched, waiter) := w.sched.pushWaiter band peer w.clock
  { w with sched, tickets := waiter.ticket :: w.tickets }

def World.admitOrEnqueue (w : World) (band : Band) (peer : PeerKey) : World :=
  match w.sched.takeFreeSlot band w.clock with
  | some (sched, slot) => { w with sched, permits := slot :: w.permits }
  | none => w.enqueue band peer

/-- Sending on a channel whose receiver is gone fails. -/
def World.receives (w : World) (id : Nat) : Bool := w.tickets.any fun t => t.id == id

def World.updateTicket (w : World) (id : Nat) (change : Ticket → Ticket) : World :=
  { w with tickets := w.tickets.map fun t => if t.id == id then change t else t }

/-- The new running entry is removed again when nobody is there to receive it. -/
def World.handOver (w : World) (waiter : Waiter) : World × Bool :=
  let (sched, slot) := w.sched.reserveRunning waiter.band w.clock
  if w.receives waiter.id then
    (({ w with sched } : World).updateTicket waiter.id fun t => { t with slot := some slot }, true)
  else
    let removed := sched.removeRunning slot
    ({ w with sched := { removed with counters := removed.counters.count .abandoned } }, false)

def World.unlock (w : World) : World := { w with holder := none }

/-- One turn of `while running.len() < limit { take_next; hand_over }`. -/
def World.drainTurn (w : World) (limit : Nat) : World :=
  if w.running.length < limit then
    match w.sched.takeNext w.clock with
    | none => w.unlock
    | some (waiter, sched) => (({ w with sched } : World).handOver waiter).1
  else w.unlock

/-- One turn of `while let Some(waiter) = take_next { if hand_over { return } }`. -/
def World.releaseTurn (w : World) : World :=
  match w.sched.takeNext w.clock with
  | none => w.unlock
  | some (waiter, sched) =>
      let (handed, took) := ({ w with sched } : World).handOver waiter
      if took then handed.unlock else handed

def World.turn (w : World) : Holder → World
  | .setCapacity capacity => w.drainTurn capacity
  | .resume => w.drainTurn w.capacity
  | .release => w.releaseTurn

/-- `release` up to its loop. -/
def World.release (w : World) (slot : Nat) : World :=
  let freed := { w with sched := w.sched.removeRunning slot }
  if freed.paused then freed else { freed with holder := some .release }

/-- `set_capacity` from its lock to its loop, after it stored `capacity`. -/
def World.lockCapacity (w : World) (capacity : Nat) : World :=
  if w.paused then w else { w with holder := some (.setCapacity capacity) }

def World.setPaused (w : World) (paused : Bool) : World :=
  { w with sched := { w.sched with inner := { w.sched.inner with paused } } }

def World.ticket? (w : World) (id : Nat) : Option Ticket := w.tickets.find? fun t => t.id == id

/-- `Ticket::granted` once the channel holds `slot`: the permit exists and the channel is read. -/
def World.granted (w : World) (ticket : Ticket) (slot : Nat) : World :=
  { w.updateTicket ticket.id (fun t => { t with slot := none, taken := true }) with
    permits := slot :: w.permits }

def World.timedOut (w : World) (ticket : Ticket) : World :=
  w.updateTicket ticket.id fun t => { t with withdrawal := .timedOut }

/-- `Ticket::drop` up to the answer of `withdraw`. -/
def World.dropTicket (w : World) (ticket : Ticket) : World :=
  if ticket.taken then { w with tickets := w.tickets.erase ticket }
  else
    match w.sched.withdraw ticket.id ticket.withdrawal with
    | some sched => { w with sched, tickets := w.tickets.erase ticket }
    | none => w.updateTicket ticket.id fun t => { t with closing := true }

/-- The rest of `Ticket::drop`: read the channel, and give back what it held. -/
def World.closeTicket (w : World) (ticket : Ticket) : World :=
  let closed := { w with tickets := w.tickets.erase ticket }
  match ticket.slot with
  | some slot => closed.release slot
  | none => closed

inductive Action where
  | tick (elapsed : Nat)
  | tryAdmit
  | admitOrEnqueue (band : Band) (peer : PeerKey)
  | enqueue (band : Band) (peer : PeerKey)
  | storeCapacity (capacity : Nat)
  | lockCapacity (capacity : Nat)
  | setBandLimits (limits : BandLimits)
  | pause
  | dropGuard
  | turn
  | dropPermit (slot : Nat)
  | claim (ticket : Nat)
  | timedOut (ticket : Nat)
  | dropTicket (ticket : Nat)
  | closeTicket (ticket : Nat)
  | describe (slot : Nat) (id model : String) (promptTokens : Nat)
  | inBand (slot : Nat) (band : Band)
  deriving DecidableEq, Repr

/-- A critical section starts only when nobody holds the lock. -/
def World.free (w : World) : Bool := w.holder.isNone

/-- Where a `set_capacity` store may land. -/
def World.admitsStore (w : World) : Bool := w.holder == none || w.holder == some .resume

def guardedBy (enabled : Bool) (w : World) : Option World := if enabled then some w else none

def step (w : World) : Action → Option World
  | .tick elapsed => guardedBy w.free { w with clock := w.clock + elapsed }
  | .tryAdmit => guardedBy w.free w.tryAdmit
  | .admitOrEnqueue band peer => guardedBy w.free (w.admitOrEnqueue band peer)
  | .enqueue band peer => guardedBy w.free (w.enqueue band peer)
  | .storeCapacity capacity =>
      guardedBy w.admitsStore { w with
        sched := { w.sched with capacity := max capacity 1 }
        pending := max capacity 1 :: w.pending }
  | .lockCapacity capacity =>
      guardedBy (w.free && w.pending.contains capacity)
        (({ w with pending := w.pending.erase capacity } : World).lockCapacity capacity)
  | .setBandLimits limits => some { w with sched := w.sched.setBandLimits limits }
  | .pause => guardedBy w.free { w.setPaused true with guards := w.guards + 1 }
  | .dropGuard =>
      guardedBy (w.free && decide (0 < w.guards))
        { w.setPaused false with guards := w.guards - 1, holder := some .resume }
  | .turn => w.holder.map w.turn
  | .dropPermit slot =>
      guardedBy (w.free && w.permits.contains slot)
        (({ w with permits := w.permits.erase slot } : World).release slot)
  | .claim id =>
      (w.ticket? id).bind fun ticket => ticket.slot.bind fun slot =>
        guardedBy (!ticket.closing) (w.granted ticket slot)
  | .timedOut id =>
      (w.ticket? id).bind fun ticket => guardedBy (!ticket.closing) (w.timedOut ticket)
  | .dropTicket id =>
      (w.ticket? id).bind fun ticket =>
        guardedBy (w.free && !ticket.closing) (w.dropTicket ticket)
  | .closeTicket id =>
      (w.ticket? id).bind fun ticket =>
        guardedBy (w.free && ticket.closing) (w.closeTicket ticket)
  | .describe slot id model promptTokens =>
      guardedBy (w.free && w.permits.contains slot)
        { w with sched := w.sched.describe slot id model promptTokens }
  | .inBand slot band =>
      guardedBy (w.free && w.permits.contains slot) { w with sched := w.sched.inBand slot band }

theorem guardedBy_eq_some {enabled : Bool} {w t : World} :
    guardedBy enabled w = some t ↔ enabled = true ∧ w = t := by
  cases enabled <;> simp [guardedBy]

theorem World.ticket?_eq_some {w : World} {id : Nat} {ticket : Ticket}
    (found : w.ticket? id = some ticket) : ticket ∈ w.tickets ∧ ticket.id = id :=
  ⟨List.mem_of_find?_eq_some found, by simpa using List.find?_some found⟩

theorem World.free_iff {w : World} : w.free = true ↔ w.holder = none := Option.isNone_iff_eq_none

end Lightweight.Gateway
