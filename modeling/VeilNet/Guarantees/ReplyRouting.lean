import VeilNet.Source.Xswd

/-!
# Whose reply a call returns

`readReply` hands over the next frame of the socket, whatever its
id. It is the caller's own when every `Call` starts on a quiet bridge. With two calls at a time a
transfer returns the outcome of the other, and after a cancelled call the next one returns its
reply.
-/
namespace VeilNet.Guarantees.ReplyRouting
open Lib Source.Xswd

/-- The reply is the wallet's answer to the request, under the request's id. -/
def Answers (link : Link) (r : Request) (reply : Reply) : Prop :=
  reply.id = some r.id ∧ (r, reply) ∈ link.answered

/-- Every `Call` that returned for a reply returned for the reply to its own request. -/
def OwnReply (s : Bridge) : Prop :=
  ∀ c ∈ s.callers, ∀ reply, c.phase = .returned (.ok reply) → Answers s.link c.request reply

/-- No request or reply is on its way, and every earlier `Call` is done. -/
def Quiet (s : Bridge) : Prop :=
  s.link.toWallet = [] ∧ s.link.pending = [] ∧ s.link.toClient = [] ∧ ∀ c ∈ s.callers, c.Done

instance (s : Bridge) : Decidable (Quiet s) := inferInstanceAs (Decidable (_ ∧ _))

/-- A `Call` starts on a quiet bridge. -/
def StartsQuiet (s : Bridge) (op : Op) : Prop := op matches .begin _ → Quiet s

instance (s : Bridge) (op : Op) : Decidable (StartsQuiet s op) :=
  inferInstanceAs (Decidable (_ → _))

/-- All that is on its way belongs to caller `i`, the other callers are done, and every reply
a caller has is its own. -/
structure Owned (i : ℕ) (s : Bridge) : Prop where
  requests : ∀ r ∈ s.link.toWallet ++ s.link.pending, ∃ c, s.callers[i]? = some c ∧ r = c.request
  replies : ∀ reply ∈ s.link.toClient,
    ∃ c, s.callers[i]? = some c ∧ Answers s.link c.request reply
  others : ∀ (j : ℕ) (c : Caller), s.callers[j]? = some c → j ≠ i → c.Done
  own : ∀ (j : ℕ) (c : Caller), s.callers[j]? = some c → ∀ reply, c.Has reply →
    Answers s.link c.request reply

variable {s : Bridge} {i : ℕ}

theorem Owned.eq_owner {c : Caller} {j : ℕ} (h : Owned i s) (found : s.callers[j]? = some c)
    (live : ¬ c.Done) : j = i := by
  by_contra other
  exact live (h.others j c found other)

theorem Owned.sent {c : Caller} (h : Owned i s) (found : s.callers[i]? = some c) {r : Request}
    (member : r ∈ s.link.toWallet ++ s.link.pending) : r = c.request := by
  obtain ⟨owner, at_, rfl⟩ := h.requests r member
  rw [Option.some.inj (at_.symm.trans found)]

theorem Owned.arrived {c : Caller} (h : Owned i s) (found : s.callers[i]? = some c) {reply : Reply}
    (member : reply ∈ s.link.toClient) : Answers s.link c.request reply := by
  obtain ⟨owner, at_, answers⟩ := h.replies reply member
  rwa [Option.some.inj (at_.symm.trans found)] at answers

/-- A step of a caller is one of the owner, and leaves it the owner. -/
theorem Owned.move {c c' : Caller} {link : Link} (h : Owned i s) (j : ℕ)
    (found : s.callers[j]? = some c) (moved : Advance s.link link c c') :
    Owned i { s with link := link, callers := s.callers.set j c' } := by
  obtain rfl : j = i := h.eq_owner found moved.live
  have owner : (s.callers.set j c')[j]? = some c' :=
    List.getElem?_set_self (List.getElem?_eq_some_iff.mp found).1
  have kept : ∀ reply, Answers s.link c.request reply → Answers link c'.request reply := by
    intro reply answers
    rwa [Answers, moved.request, moved.answered]
  refine ⟨fun r member => ⟨c', owner, ?_⟩, fun reply member => ⟨c', owner, ?_⟩,
    fun k d at_ other => ?_, fun k d at_ reply has => ?_⟩
  · -- a request on its way was there before, or it is the one just written
    rw [moved.request]
    rcases List.mem_append.mp member with sent | waiting
    · rcases moved.toWallet r sent with before | own
      · exact h.sent found (List.mem_append_left _ before)
      · exact own
    · rw [moved.pending] at waiting
      exact h.sent found (List.mem_append_right _ waiting)
  · exact kept reply (h.arrived found (moved.toClient reply member))
  · rw [List.getElem?_set_ne (fun eq => other eq.symm)] at at_
    exact h.others k d at_ other
  · by_cases here : k = j
    · subst here
      rw [owner] at at_
      cases at_
      rcases moved.has reply has with before | taken
      · exact kept reply (h.own k c found reply before)
      · exact kept reply (h.arrived found taken)
    · rw [List.getElem?_set_ne (fun eq => here eq.symm)] at at_
      rw [Answers, moved.answered]
      exact h.own k d at_ reply has

theorem Owned.take {r : Request} {rest : List Request} (h : Owned i s)
    (next : s.link.toWallet = r :: rest) :
    Owned i { s with link := { s.link with toWallet := rest, pending := s.link.pending ++ [r] } }
      where
  requests q member := by
    apply h.requests q
    rw [next]
    simp only [List.mem_append, List.mem_cons, List.not_mem_nil, or_false] at member ⊢
    tauto
  replies := h.replies
  others := h.others
  own := h.own

theorem Owned.answer {r : Request} {k : ℕ} (verdict : Verdict) (h : Owned i s)
    (found : s.link.pending[k]? = some r) :
    Owned i { s with link := { s.link with
      pending := s.link.pending.eraseIdx k
      toClient := s.link.toClient ++ [⟨verdict, some r.id⟩]
      answered := s.link.answered ++ [(r, ⟨verdict, some r.id⟩)] } } where
  requests q member := by
    apply h.requests q
    rcases List.mem_append.mp member with sent | waiting
    · exact List.mem_append_left _ sent
    · exact List.mem_append_right _ (List.mem_of_mem_eraseIdx waiting)
  replies reply member := by
    rcases List.mem_append.mp member with before | new
    · obtain ⟨c, owner, answers⟩ := h.replies reply before
      exact ⟨c, owner, answers.1, List.mem_append_left _ answers.2⟩
    · obtain ⟨c, owner, rfl⟩ := h.requests r (List.mem_append_right _ (List.mem_of_getElem? found))
      cases List.mem_singleton.mp new
      exact ⟨c, owner, rfl, List.mem_append_right _ List.mem_cons_self⟩
  others := h.others
  own j c at_ reply has :=
    have answers := h.own j c at_ reply has
    ⟨answers.1, List.mem_append_left _ answers.2⟩

/-- On a quiet bridge a new caller owns what is on its way: nothing yet. -/
theorem Owned.begin {call : Invocation} (h : Owned i s) (quiet : Quiet s) :
    Owned s.callers.length { s with
      seq := s.seq + 1
      callers := s.callers ++ [⟨⟨call, s.seq + 1⟩, .numbered, .unstarted⟩] } := by
  obtain ⟨sent, waiting, arriving, done⟩ := quiet
  refine ⟨fun r member => ?_, fun reply member => ?_, fun j c at_ other => ?_,
    fun j c at_ reply has => ?_⟩
  · simp only [sent, waiting, List.append_nil, List.not_mem_nil] at member
  · simp only [arriving, List.not_mem_nil] at member
  · rcases Slots.getElem?_concat_cases at_ with old | ⟨new, _⟩
    · exact done c (List.mem_of_getElem? old)
    · exact absurd new other
  · rcases Slots.getElem?_concat_cases at_ with old | ⟨_, rfl⟩
    · exact h.own j c old reply has
    · rcases has with held | returned <;> contradiction

theorem owned_step (op : Op) (quiet : StartsQuiet s op) (h : ∃ i, Owned i s) :
    ∃ i, Owned i (s.step op) := by
  obtain ⟨i, h⟩ := h
  cases op with
  | begin call =>
    simp only [Bridge.step]
    split
    · exact ⟨_, h.begin (quiet rfl)⟩
    · exact ⟨i, h⟩
  | move j m =>
    simp only [Bridge.step]
    split
    · exact ⟨i, h⟩
    · next c found =>
      split
      · exact ⟨i, h⟩
      · next moved => exact ⟨i, h.move j found (Caller.advance_spec moved)⟩
  | take =>
    simp only [Bridge.step]
    split
    · exact ⟨i, h⟩
    · next next => exact ⟨i, h.take next⟩
  | answer k verdict =>
    simp only [Bridge.step]
    split
    · exact ⟨i, h⟩
    · next found => exact ⟨i, h.answer verdict found⟩
  | close => exact ⟨i, h.requests, h.replies, h.others, h.own⟩

theorem owned_connect : ∃ i, Owned i connect := by
  refine ⟨0, fun r member => ?_, fun reply member => ?_, fun j c at_ => ?_, fun j c at_ => ?_⟩
  · cases member
  · cases member
  · cases at_
  · cases at_

/-- In every run whose calls start on a quiet bridge, every `Call` that returns a result or a
wallet's error returns it for the reply to its own request. -/
theorem own_reply_of_quiet (ops : List Op) (quiet : Run.Along Bridge.step StartsQuiet connect ops) :
    Run.Throughout Bridge.step OwnReply connect ops := by
  have owned : Run.Throughout Bridge.step (fun s => ∃ i, Owned i s) connect ops :=
    Run.throughout_of_invariant owned_connect (fun _ op orderly h => owned_step op orderly h) quiet
  refine owned.mono ?_
  intro s ⟨i, h⟩ c member reply returned
  obtain ⟨j, at_⟩ := List.mem_iff_getElem?.mp member
  exact h.own j c at_ reply (.inr returned)

/-- A transfer of one unit to the destination. -/
def transferTo (dest : String) : Invocation :=
  ⟨"transfer", [("destination", .text dest), ("amount", .number 1), ("ringsize", .number 32)]⟩

def sent (txid : String) : Verdict := ⟨none, "", txid, none⟩

/-- A wallet whose results are the transaction ids. -/
def plain : Library String := ⟨fun _ text => .ok text, id⟩

/-- A cancelled call whose goroutine reads the late reply, and then a transfer. -/
def cancelledThenQuiet : List Op :=
  [.begin getBalance, .move 0 .write, .move 0 .listen, .move 0 (.cancel "context canceled"), .take,
    .answer 0 (sent "7"), .move 0 .receive, .begin (transferTo "bob"), .move 1 .write, .take,
    .move 1 .listen, .answer 0 (sent "tx-bob"), .move 1 .receive, .move 1 .collect]

/-- After the cancelled call the transfer returns its own transaction. -/
theorem late_reply_drained :
    (((Run.run Bridge.step connect cancelledThenQuiet).callers[1]?).bind (·.returns plain)).map
        (transferResult id) = some (.ok "tx-bob") ∧
      Run.Throughout Bridge.step OwnReply connect cancelledThenQuiet :=
  ⟨by decide, own_reply_of_quiet _ (by decide)⟩

/-- Two transfers at a time, answered in the other order. -/
def crossed : List Op :=
  [.begin (transferTo "alice"), .begin (transferTo "bob"), .move 0 .write, .move 1 .write, .take,
    .take,
    .move 0 .listen, .move 1 .listen, .answer 1 (sent "tx-bob"), .move 0 .receive, .move 0 .collect]

/-- The transfer to the first destination returns the transaction of the second. -/
theorem crossed_transfers :
    requestTransfer "alice" 1 = .ok (transferTo "alice") ∧
    (((Run.run Bridge.step connect crossed).callers[0]?).bind (·.returns plain)).map
      (transferResult id) = some (.ok "tx-bob") ∧
    (Run.run Bridge.step connect crossed).link.answered =
      [(⟨transferTo "bob", 2⟩, ⟨sent "tx-bob", some 2⟩)] ∧
    ¬ OwnReply (Run.run Bridge.step connect crossed) := by
  refine ⟨by decide, by decide, by decide, fun own => ?_⟩
  have answers := own ⟨⟨transferTo "alice", 1⟩, .returned (.ok ⟨sent "tx-bob", some 2⟩),
    .holds (.ok ⟨sent "tx-bob", some 2⟩)⟩ (by decide) _ rfl
  exact absurd answers.1 (by decide)

/-- A cancelled call whose goroutine gives up before the reply, and then a transfer: the
transfer returns for the reply to the cancelled call. -/
example : (((Run.run Bridge.step connect
    [.begin getBalance, .move 0 .write, .move 0 .listen, .move 0 (.cancel "context canceled"),
      .move 0 (.readFails "i/o timeout"), .take, .answer 0 (sent "7"), .begin (transferTo "bob"),
      .move 1 .write, .move 1 .listen, .move 1 .receive, .move 1 .collect]).callers[1]?).bind
        (·.returns plain)).map (transferResult id) = some (.ok "7") := by
  decide

end VeilNet.Guarantees.ReplyRouting
