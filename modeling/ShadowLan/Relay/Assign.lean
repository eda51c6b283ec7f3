import ShadowLan.Relay.Members
import ShadowLan.Relay.Queue
import Mathlib.Logic.Function.Basic

/-!
# Announcing the members

After a registration the handler sends `T_ASSIGN` to its own connection and then to every other
one; when a node goes dark a task of its own does.  Each of these frames is computed right before
it is handed to `r_send`, which may put the whole announcement to sleep at a full queue.

* `members`, `assign`      what a `T_ASSIGN` says, and to whom;
* `Job`                    an announcement between two awaits;
* `settle`, `advance`      one send of an announcement, and what follows;
* `leave`                  the end of a connection;
* `step`                   tables, queues and announcements, in any order;
* `AtRest`, `Views`        nothing is pending; every member's last `T_ASSIGN` is up to date.
-/

namespace ShadowLan

structure Assign where
  virt : Nat
  net : Nat
  members : List (Nat × Nat)
  deriving DecidableEq, Repr

/-- the payload of a frame `T_ASSIGN`, for a subnet of 24 bits -/
def encodeAssign (a : Assign) : Bytes :=
  packI a.virt ++ packI a.net ++ [24] ++ packH a.members.length ++
    a.members.flatMap fun m => packI m.1 ++ packI m.2

namespace Relay
variable (s : Relay)

/-- some link of the node has a writer that is not closing -/
def isLive (ent : Node) : Bool := ent.links.keys.any fun w => !s.isClosing w

/-- the nodes that the others see -/
def members : List (Nat × Nat) :=
  (s.nodes.items.filter fun e => e.2.virt ≠ 0 && s.isLive e.2).map fun e => (e.1, e.2.virt)

/-- the address of the node that a connection is registered for -/
def ownVirt (w : Writer) : Nat :=
  (((s.writer_node.get? w).bind s.nodes.get?).map Node.virt).getD 0

def assign (w : Writer) : Assign := ⟨s.ownVirt w, s.subnet_net, s.members⟩

/-- `all_links` -/
def allWriters : List Writer := (s.allLinks.map LinkRef.writer).filter fun w => !s.isClosing w

/-- `live_links` of the node is empty -/
def isDark (n : Nat) : Bool := (s.nodes.get? n).all fun ent => !s.isLive ent

end Relay

/-- an announcement; `own` is the connection whose handler makes it -/
inductive Job where
  /-- a registration that is about to send to its own connection -/
  | registered (w : Writer)
  /-- a task that has not run yet -/
  | scheduled
  /-- about to send to the next connection -/
  | loop (own : Option Writer) (todo : List Writer)
  /-- asleep in `r_send`; `todo` is `none` until the loop begins -/
  | waiting (own : Option Writer) (target : Writer) (c : Call) (a : Assign)
      (todo : Option (List Writer))
  deriving DecidableEq, Repr

def Job.own : Job → Option Writer
  | .registered w => some w
  | .scheduled => none
  | .loop own _ => own
  | .waiting own _ _ _ _ => own

/-- the connection at whose queue it sleeps -/
def Job.target : Job → Option Writer
  | .waiting _ w _ _ _ => some w
  | _ => none

structure Hall where
  relay : Relay
  queues : Dict Writer SendQ
  /-- the last `T_ASSIGN` that was queued for a connection -/
  last : Writer → Option Assign
  jobs : List Job

inductive HallAct where
  | relay (a : RelayAct)
  /-- the queue of a connection: its task, and the calls of `r_send` with other frames -/
  | queue (w : Writer) (a : SendAct)
  /-- the announcement with this index goes on to its next await -/
  | job (i : Nat)

namespace Hall

def init (token : Bytes) (allowed : List Nat) (subnet clock : Nat) : Hall :=
  ⟨.init token allowed subnet clock, .empty, fun _ => none, []⟩

variable (h : Hall)

/-- the queue of a connection; one that nothing was ever sent to has not got one -/
def wq (w : Writer) : SendQ := (h.queues.get? w).getD .init

def setQueue (w : Writer) (q : SendQ) : Hall := { h with queues := h.queues.set w q }

def addJobs (js : List Job) : Hall := { h with jobs := h.jobs ++ js }

/-- the end of a connection: when its node goes dark, a task tells the others -/
def leave (w : Writer) : Hall :=
  let r := h.relay.teardown w
  let told := match h.relay.writer_node.get? w with
    | none => []
    | some n => if (h.relay.nodes.get? n).isSome && r.isDark n then [.scheduled] else []
  { h.setQueue w (h.wq w).retire with relay := r, jobs := h.jobs ++ told }

/-- a send of `a` to `x` has come to `c`.  A `KeyError` ends the announcement, and the handler that
makes it. -/
def settle (own : Option Writer) (x : Writer) (a : Assign) (todo : Option (List Writer))
    (r : SendQ × Call) : Hall :=
  let h := h.setQueue x r.1
  match r.2 with
  | .returned =>
    { h with last := Function.update h.last x (some a) }.addJobs
      [.loop own (todo.getD h.relay.allWriters)]
  | .raised => match own with
    | some w => h.leave w
    | none => h
  | c => h.addJobs [.waiting own x c a todo]

def sendAssign (own : Option Writer) (x : Writer) (todo : Option (List Writer)) : Hall :=
  h.settle own x (h.relay.assign x) todo
    ((h.wq x).rSend T_ASSIGN (encodeAssign (h.relay.assign x)) none)

/-- the loop passes over this connection -/
def skips (own : Option Writer) (x : Writer) : Bool :=
  own = some x || h.relay.isClosing x || (h.relay.writer_node.get? x).isNone

/-- the next step of an announcement, which has been taken out of the list -/
def advance : Job → Option Hall
  | .registered w => some (h.sendAssign (some w) w none)
  | .scheduled => some (h.addJobs [.loop none h.relay.allWriters])
  | .loop _ [] => some h
  | .loop own (x :: todo) =>
    if h.skips own x then some (h.addJobs [.loop own todo])
    else some (h.sendAssign own x (some todo))
  | .waiting own x c a todo => ((h.wq x).resume c).map (h.settle own x a todo)

/-- a handler is in the middle of an announcement -/
def isBusy (w : Writer) : Bool := h.jobs.any fun j => j.own = some w

def withRelay (r : Relay) : Hall := { h with relay := r }

/-- a frame `T_NODE` -/
def nodeFrame (w : Writer) (ip : String) (payload : Bytes) : Hall :=
  if ctlVer payload ≠ PVER then h.leave w
  else
    match decodeCtlNode payload with
    | none => h
    | some f =>
      if f.node = 0 then h
      else
        let (r, ok) := h.relay.registerNode w ip f
        if ok then (h.withRelay r).addJobs [.registered w] else (h.withRelay r).leave w

/-- one step.  The frames of a connection are read only while its handler is not busy. -/
def step (h : Hall) : HallAct → Option Hall
  | .relay (.accept w ip) => do
    let r ← h.relay.next (.accept w ip)
    let q ← (h.wq w).step .accept
    if h.jobs.all fun j => j.target ≠ some w then
      some { (h.setQueue w q).withRelay r with last := Function.update h.last w none }
    else none
  | .relay (.node w payload) =>
    if h.isBusy w then none
    else (h.relay.players.get? w).map fun ip => h.nodeFrame w ip payload
  | .relay (.gone w) =>
    if h.isBusy w then none else (h.relay.players.get? w).map fun _ => h.leave w
  | .relay (.udpMode w) => if h.isBusy w then none else (h.relay.next (.udpMode w)).map h.withRelay
  | .relay (.tun w payload) =>
    if h.isBusy w then none else (h.relay.next (.tun w payload)).map h.withRelay
  | .relay a => (h.relay.next a).map h.withRelay
  | .queue w a =>
    match a with
    | .accept | .retire => none
    | .call mtype _ _ => if mtype = T_ASSIGN then none else ((h.wq w).step a).map (h.setQueue w)
    | _ => ((h.wq w).step a).map (h.setQueue w)
  | .job i => do
    let j ← h.jobs[i]?
    { h with jobs := h.jobs.eraseIdx i }.advance j

/-! ## what the members are promised -/

/-- no handler, no broadcast and no send is pending -/
def AtRest (h : Hall) : Prop :=
  h.jobs = [] ∧ (∀ w ip, h.relay.players.get? w = some ip → h.relay.isClosing w = false) ∧
    ∀ e ∈ h.queues.items, ∀ c ∈ e.2.calls, c = .returned ∨ c = .raised

/-- the last `T_ASSIGN` queued for each live registered link lists the members, and its address -/
def Views (h : Hall) : Prop :=
  ∀ n w, h.relay.holds n w → h.relay.isClosing w = false →
    (h.relay.writer_node.get? w).isSome = true → h.last w = some (h.relay.assign w)

end Hall

end ShadowLan
