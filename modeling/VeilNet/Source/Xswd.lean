import VeilNet.Lib.GoText
import VeilNet.Lib.Run
import VeilNet.Lib.Slots

/-!
The XSWD bridge of `internal/dero/xswd_client.go` on one open connection: `Call` with `writeJSON`
and `readReply`, `RequestTransfer`, `GetAddress` and `GetBalance`.

The socket is two FIFO channels of frames; the wallet answers each request once, with its id, in
an order of its own. A `Call` is cut where another goroutine can come between: after it takes its
number, after it writes, after it starts the goroutine that reads one frame, and at the `select`.
The reading goroutine is part of its caller's record and outlives the call. `seq`, an `int`, is
unbounded: it goes up by one with a call.

The handshake that opens the connection is left out. A deadline is a read or write that fails, which
may happen at any time.
-/
namespace VeilNet.Source.Xswd
open Lib

/-- A value of a `map[string]any` that the client sends. -/
inductive Param where
  | text (value : String)
  | number (value : ℕ)
  deriving DecidableEq

/-- The method and parameters that a `Call` is given. -/
structure Invocation where
  method : String
  params : List (String × Param)
  deriving DecidableEq

structure Request extends Invocation where
  id : ℕ
  deriving DecidableEq

/-- What a wallet says to a request: a verdict, a result or an error. An absent result is
the empty text. -/
structure Verdict where
  accepted : Option Bool
  message : String
  result : String
  error : Option (ℤ × String)
  deriving DecidableEq

structure Reply extends Verdict where
  id : Option ℕ
  deriving DecidableEq

inductive XswdError where
  | notConnected
  | write (text : String)
  | read (text : String)
  /-- `ctx.Err()` -/
  | ctx (text : String)
  /-- `ErrDenied` with the wallet's words -/
  | denied (text : String)
  | failed (method text : String)
  | decode (method text : String)
  | emptyDestination
  | zeroAmount
  deriving DecidableEq

/-- The library calls of the client: `json.Unmarshal` into the variable of the method's
caller, and `strings.ToLower`. -/
structure Library (V : Type) where
  unmarshal : String → String → Except String V
  toLower : String → String

section Outcome

variable {V : Type} (lib : Library V)

def isDenialMessage (msg : String) : Bool :=
  ["denied", "rejected", "refused", "not allowed", "permission"].any
    (GoText.contains (lib.toLower msg) ·)

/-- The end of `Call`, from the reply on. A reply without a result leaves the caller's
variable as it was. -/
def finish (method : String) (reply : Reply) : Except XswdError (Option V) :=
  if reply.accepted = some false then
    .error (.denied (if reply.message = "" then "wallet refused " ++ method else reply.message))
  else match reply.error with
    | some (_, message) =>
      if isDenialMessage lib message then .error (.denied message)
        else .error (.failed method message)
    | none =>
      if reply.result = "" then .ok none
      else match lib.unmarshal method reply.result with
        | .ok value => .ok (some value)
        | .error text => .error (.decode method text)

end Outcome

def getAddress : Invocation := ⟨"GetAddress", []⟩

def getBalance : Invocation := ⟨"GetBalance", []⟩

/-- The checks of `RequestTransfer` and the call it then makes. -/
def requestTransfer (dest : String) (amountAtomic : ℕ) : Except XswdError Invocation :=
  if dest = "" then .error .emptyDestination
  else if amountAtomic = 0 then .error .zeroAmount
  else .ok ⟨"transfer",
    [("destination", .text dest), ("amount", .number amountAtomic), ("ringsize", .number 32)]⟩

/-- What `RequestTransfer` returns for what its call returns. -/
def transferResult {V : Type} (txid : V → String) :
    Except XswdError (Option V) → Except XswdError String
  | .error e => .error e
  | .ok value => .ok ((value.map txid).getD "")

/-- Where a `Call` is. -/
inductive Phase where
  /-- It took its number. -/
  | numbered
  /-- It wrote its request. -/
  | written
  /-- It waits in the `select` of `readReply`. -/
  | waiting
  /-- It returned, for a reply or with an error of its own. -/
  | returned (outcome : Except XswdError Reply)
  deriving DecidableEq

/-- The goroutine of `readReply` with its channel. -/
inductive Reader where
  | unstarted
  | receiving
  | holds (frame : Except String Reply)
  deriving DecidableEq

structure Caller where
  request : Request
  phase : Phase
  reader : Reader
  deriving DecidableEq

/-- What a `Call` returned. -/
def Caller.returns {V : Type} (lib : Library V) (c : Caller) :
    Option (Except XswdError (Option V)) :=
  match c.phase with
  | .returned (.ok reply) => some (finish lib c.request.method reply)
  | .returned (.error e) => some (.error e)
  | _ => none

/-- The socket with the wallet behind it. -/
structure Link where
  toWallet : List Request
  /-- Requests that the wallet has read and not answered. -/
  pending : List Request
  toClient : List Reply
  /-- The answers the wallet gave. -/
  answered : List (Request × Reply)

structure Bridge where
  connected : Bool
  seq : ℕ
  link : Link
  callers : List Caller

/-- The bridge when `Connect` has returned. -/
def connect : Bridge := ⟨true, 0, ⟨[], [], [], []⟩, []⟩

/-- A step of one `Call` or of its reading goroutine. -/
inductive Move where
  | write
  | writeFails (text : String)
  | listen
  | receive
  | readFails (text : String)
  | collect
  | cancel (text : String)

/-- The step, where the caller can take it. -/
def Caller.advance (connected : Bool) (link : Link) (c : Caller) : Move → Option (Link × Caller)
  | .write =>
    if c.phase = .numbered then
      if connected then
        some ({ link with toWallet := link.toWallet ++ [c.request] }, { c with phase := .written })
      else some (link, { c with phase := .returned (.error .notConnected) })
    else none
  | .writeFails text =>
    if c.phase = .numbered then some (link, { c with phase := .returned (.error (.write text)) })
    else none
  | .listen =>
    if c.phase = .written then
      if connected then some (link, { c with phase := .waiting, reader := .receiving })
      else some (link, { c with phase := .returned (.error .notConnected) })
    else none
  | .receive =>
    match c.reader, link.toClient with
    | .receiving, reply :: rest =>
      some ({ link with toClient := rest }, { c with reader := .holds (.ok reply) })
    | _, _ => none
  | .readFails text =>
    if c.reader = .receiving then some (link, { c with reader := .holds (.error text) }) else none
  | .collect =>
    match c.phase, c.reader with
    | .waiting, .holds frame => some (link, { c with phase := .returned (frame.mapError .read) })
    | _, _ => none
  | .cancel text =>
    -- the reading goroutine stays; the deadline that ends it is a failed read of its own
    if c.phase = .waiting then some (link, { c with phase := .returned (.error (.ctx text)) })
      else none

inductive Op where
  /-- A `Call` takes the next number. -/
  | begin (call : Invocation)
  | move (i : ℕ) (m : Move)
  /-- The wallet reads the next request. -/
  | take
  /-- The wallet answers one of the requests it has read. -/
  | answer (k : ℕ) (verdict : Verdict)
  | close

namespace Bridge

/-- One step; a step that cannot be taken changes nothing. A `Call` without a connection
returns at once and leaves nothing behind. -/
def step (s : Bridge) : Op → Bridge
  | .begin call =>
    if s.connected then
      { s with
        seq := s.seq + 1
        callers := s.callers ++ [⟨⟨call, s.seq + 1⟩, .numbered, .unstarted⟩] }
    else s
  | .move i m =>
    match s.callers[i]? with
    | none => s
    | some c =>
      match c.advance s.connected s.link m with
      | none => s
      | some (link, c') => { s with link := link, callers := s.callers.set i c' }
  | .take =>
    match s.link.toWallet with
    | [] => s
    | r :: rest =>
      { s with link := { s.link with toWallet := rest, pending := s.link.pending ++ [r] } }
  | .answer k verdict =>
    match s.link.pending[k]? with
    | none => s
    | some r =>
      { s with link := { s.link with
          pending := s.link.pending.eraseIdx k
          toClient := s.link.toClient ++ [⟨verdict, some r.id⟩]
          answered := s.link.answered ++ [(r, ⟨verdict, some r.id⟩)] } }
  | .close => { s with connected := false }

end Bridge

/-- The caller has a reply: its goroutine holds it, or it returned with it. -/
def Caller.Has (c : Caller) (reply : Reply) : Prop :=
  c.reader = .holds (.ok reply) ∨ c.phase = .returned (.ok reply)

/-- The caller has returned, and no goroutine of its own still reads. -/
def Caller.Done (c : Caller) : Prop :=
  c.reader ≠ .receiving ∧ c.phase ≠ .numbered ∧ c.phase ≠ .written ∧ c.phase ≠ .waiting

instance (c : Caller) : Decidable c.Done := inferInstanceAs (Decidable (_ ∧ _))

/-- All that a step of a caller can do: it is a step of one that is not done, it may send
its own request, and a reply it has afterwards it had before or took from the socket. -/
structure Advance (link link' : Link) (c c' : Caller) : Prop where
  live : ¬ c.Done
  request : c'.request = c.request
  toWallet : ∀ r ∈ link'.toWallet, r ∈ link.toWallet ∨ r = c.request
  pending : link'.pending = link.pending
  toClient : ∀ reply ∈ link'.toClient, reply ∈ link.toClient
  answered : link'.answered = link.answered
  has : ∀ reply, c'.Has reply → c.Has reply ∨ reply ∈ link.toClient

theorem Advance.quiet {link : Link} {c c' : Caller} (live : ¬ c.Done)
    (request : c'.request = c.request)
    (has : ∀ reply, c'.Has reply → c.Has reply) : Advance link link c c' where
  live := live
  request := request
  toWallet _ member := .inl member
  pending := rfl
  toClient _ member := member
  answered := rfl
  has reply h := .inl (has reply h)

theorem Advance.fails {link : Link} {c : Caller} (live : ¬ c.Done) (e : XswdError) :
    Advance link link c { c with phase := .returned (.error e) } :=
  .quiet live rfl fun reply h => h.elim .inl fun returned => by cases returned

/-- What one move of a caller can do to the link and to the caller. -/
theorem Caller.advance_spec {connected : Bool} {link link' : Link} {c c' : Caller} {m : Move}
    (moved : c.advance connected link m = some (link', c')) : Advance link link' c c' := by
  obtain ⟨request, phase, reader⟩ := c
  cases m with
  | write =>
    simp only [advance] at moved
    split at moved
    · next numbered =>
      have live : ¬ Caller.Done ⟨request, phase, reader⟩ := fun done => done.2.1 numbered
      split at moved
      · cases moved
        refine ⟨live, rfl, fun r member => ?_, rfl, fun _ member => member, rfl, fun reply h => ?_⟩
        · simpa using member
        · exact .inl (h.elim .inl fun returned => by cases returned)
      · cases moved
        exact .fails live _
    · cases moved
  | writeFails text =>
    simp only [advance] at moved
    split at moved
    · next numbered =>
      cases moved
      exact .fails (fun done => done.2.1 numbered) _
    · cases moved
  | listen =>
    simp only [advance] at moved
    split at moved
    · next written =>
      have live : ¬ Caller.Done ⟨request, phase, reader⟩ := fun done => done.2.2.1 written
      split at moved
      · cases moved
        exact .quiet live rfl fun reply h => by rcases h with held | returned <;> contradiction
      · cases moved
        exact .fails live _
    · cases moved
  | receive =>
    simp only [advance] at moved
    split at moved
    · next first rest found =>
      cases moved
      refine ⟨fun done => done.1 rfl, rfl, fun _ member => .inl member, rfl, fun reply member => ?_,
        rfl, fun reply h => ?_⟩
      · rw [found]
        exact List.mem_cons_of_mem _ member
      · rcases h with held | returned
        · cases held
          exact .inr (found ▸ List.mem_cons_self)
        · exact .inl (.inr returned)
    · cases moved
  | readFails text =>
    simp only [advance] at moved
    split at moved
    · next receiving =>
      cases moved
      exact .quiet (fun done => done.1 receiving) rfl fun reply h =>
        h.elim (fun held => by cases held) .inr
    · cases moved
  | collect =>
    simp only [advance] at moved
    split at moved
    · next frame =>
      cases moved
      refine .quiet (fun done => done.2.2.2 rfl) rfl fun reply h => ?_
      rcases h with held | returned
      · exact .inl held
      · cases frame with
        | ok got =>
          cases returned
          exact .inl rfl
        | error text => cases returned
    · cases moved
  | cancel text =>
    simp only [advance] at moved
    split at moved
    · next waiting =>
      cases moved
      exact .fails (fun done => done.2.2.2 waiting) _
    · cases moved

end VeilNet.Source.Xswd
