import VeilNet.Source.Tunnel.Concurrent

/-!
Of the shared state of a tunnel engine only the backends, the stop channels and the wait group
matter, and of a task only what it holds: every step is one of few moves on these.

A launch is disturbed when another backend is there as it publishes its own, or when `Stop` clears
the engine before its watchdog is registered and started. Undisturbed moves keep every backend in
someone's hands.
-/
namespace VeilNet.Source.Tunnel
open Lib

structure Own where
  backend : Option Handle
  cancel : Option Handle
  backends : ℕ
  closed : List Handle
  channels : ℕ
  cancelled : List Handle
  live : ℕ

/-- What a task holds. -/
inductive Role where
  | idle
  | created (be : Handle)
  | published
  | registered (channel : Handle)
  | halting
  | stopped (channel be : Option Handle)
  | waiting (be : Option Handle)
  | closing (be : Option Handle)
  | watching (channel : Handle)

/-- A move of one task, with the tasks that it starts. -/
inductive Move : Own → Role → Own → Role → List Role → Prop where
  | stay {o : Own} {r : Role} : Move o r o r []
  | create {o : Own} : Move o .idle { o with backends := o.backends + 1 } (.created o.backends) []
  | publish {o : Own} {be : Handle} :
      Move o (.created be) { o with backend := some be } .published []
  | register {o : Own} :
      Move o .published { o with cancel := some o.channels, channels := o.channels + 1 }
        (.registered o.channels) []
  | spawn {o : Own} {channel : Handle} :
      Move o (.registered channel) { o with live := o.live + 1 } .idle [.watching channel]
  | stop {o : Own} :
      Move o .halting { o with backend := none, cancel := none } (.stopped o.cancel o.backend) []
  | cancel {o : Own} {channel be : Option Handle} :
      Move o (.stopped channel be) { o with cancelled := channel.toList ++ o.cancelled }
        (.waiting be) []
  | wait {o : Own} {be : Option Handle} (ended : o.live = 0) :
      Move o (.waiting be) o (.closing be) []
  | close {o : Own} {be : Option Handle} :
      Move o (.closing be) { o with closed := be.toList ++ o.closed } .idle []
  | exit {o : Own} {channel : Handle} (ended : channel ∈ o.cancelled) :
      Move o (.watching channel) { o with live := o.live - 1 } .idle []

namespace Role

@[grind =] def holds (b : Handle) : Role → Bool
  | .created be => be = b
  | .stopped _ be | .waiting be | .closing be => be = some b
  | .idle | .published | .registered _ | .halting | .watching _ => false

/-- Between the publication of the backend and the start of the watchdog. -/
@[grind =] def launching : Role → Bool
  | .published | .registered _ => true
  | _ => false

/-- A watchdog, or a launch about to start it. -/
@[grind =] def token (channel : Handle) : Role → Bool
  | .registered c | .watching c => c = channel
  | _ => false

@[grind =] def watches : Role → Bool
  | .watching _ => true
  | _ => false

/-- A `Stop` that has not passed its wait. -/
@[grind =] def waits : Role → Bool
  | .stopped .. | .waiting _ => true
  | _ => false

@[grind =] def channel : Role → Option Handle
  | .registered c | .watching c => some c
  | .stopped c _ => c
  | _ => none

end Role

/-- Every backend is the engine's, closed or in a task's hands; a launch goes with its backend;
the engine's channel has one watchdog, or a launch about to start it; and another watchdog runs
only while some `Stop` waits for it. -/
structure Owned (o : Own) (rs : List Role) : Prop where
  held : ∀ b < o.backends, o.backend = some b ∨ b ∈ o.closed ∨ rs.any (Role.holds b) = true
  published : .published ∈ rs → o.backend.isSome ∧ o.cancel = none
  registered : ∀ c, .registered c ∈ rs → o.backend.isSome ∧ o.cancel = some c
  single : rs.countP Role.launching ≤ 1
  idle : o.backend = none → o.cancel = none
  running : o.backend.isSome → rs.countP Role.launching = 0 → o.cancel.isSome
  one : ∀ c, o.cancel = some c → rs.countP (Role.token c) = 1
  foreign : ∀ c, .watching c ∈ rs → o.cancel ≠ some c → rs.any Role.waits = true
  live : o.live = rs.countP Role.watches
  uncancelled : ∀ c, o.cancel = some c → c ∉ o.cancelled ∧ ∀ be, .stopped (some c) be ∉ rs
  channels : ∀ r ∈ rs, ∀ c, r.channel = some c → c < o.channels
  cancelled : ∀ c ∈ o.cancelled, c < o.channels
  current : ∀ c, o.cancel = some c → c < o.channels

theorem Owned.perm {o : Own} {rs rs' : List Role} (same : rs.Perm rs') (owned : Owned o rs) :
    Owned o rs' where
  held := by simpa only [List.any_eq_true, same.mem_iff] using owned.held
  published := by simpa only [same.mem_iff] using owned.published
  registered := by simpa only [same.mem_iff] using owned.registered
  single := by simpa only [same.countP_eq] using owned.single
  idle := owned.idle
  running := by simpa only [same.countP_eq] using owned.running
  one := by simpa only [same.countP_eq] using owned.one
  foreign := by simpa only [List.any_eq_true, same.mem_iff] using owned.foreign
  live := by simpa only [same.countP_eq] using owned.live
  uncancelled := by simpa only [same.mem_iff] using owned.uncancelled
  channels := by simpa only [same.mem_iff] using owned.channels
  cancelled := owned.cancelled
  current := owned.current

section moves
variable {o : Own} {rs : List Role} {be channel : Option Handle} {c b : Handle}

theorem Owned.noLaunch (owned : Owned o rs) (free : o.backend = none) :
    rs.countP Role.launching = 0 := by
  refine List.countP_eq_zero.mpr fun r member launches => ?_
  cases r with
  | published => simpa [free] using (owned.published member).1
  | registered c => simpa [free] using (owned.registered c member).1
  | _ => cases launches

theorem Owned.noToken (owned : Owned o rs) : rs.countP (Role.token o.channels) = 0 := by
  refine List.countP_eq_zero.mpr fun r member has => ?_
  have bound := owned.channels r member o.channels
  cases r <;> simp_all [Role.token, Role.channel]

theorem Owned.create (owned : Owned o (.idle :: rs)) :
    Owned { o with backends := o.backends + 1 } (.created o.backends :: rs) := by
  obtain ⟨_, _, _, _, _, _, _, _, _, _, _, _, _⟩ := owned
  constructor <;> grind

/-- The backend is the engine's first, so no other launch is under way. -/
theorem Owned.publish (owned : Owned o (.created b :: rs)) (free : o.backend = none) :
    Owned { o with backend := some b } (.published :: rs) := by
  have alone := owned.noLaunch free
  obtain ⟨_, _, _, _, _, _, _, _, _, _, _, _, _⟩ := owned
  constructor <;> grind

theorem Owned.register (owned : Owned o (.published :: rs)) :
    Owned { o with cancel := some o.channels, channels := o.channels + 1 }
      (.registered o.channels :: rs) := by
  have fresh := owned.noToken
  have alone : ∀ r ∈ rs, ¬ r.launching = true := by
    have single := owned.single
    rw [List.countP_cons_of_pos rfl] at single
    exact List.countP_eq_zero.mp (by omega)
  obtain ⟨_, _, _, _, _, _, _, _, _, _, _, _, _⟩ := owned
  constructor <;> grind

theorem Owned.spawn (owned : Owned o (.registered c :: rs)) :
    Owned { o with live := o.live + 1 } (.idle :: .watching c :: rs) := by
  obtain ⟨_, _, _, _, _, _, _, _, _, _, _, _, _⟩ := owned
  constructor <;> grind

/-- `Stop` takes the backend over, and waits for the watchdog that loses its engine. -/
theorem Owned.stop (owned : Owned o (.halting :: rs)) (calm : rs.countP Role.launching = 0) :
    Owned { o with backend := none, cancel := none } (.stopped o.cancel o.backend :: rs) := by
  obtain ⟨_, _, _, _, _, _, _, _, _, _, _, _, _⟩ := owned
  constructor <;> grind

theorem Owned.cancel (owned : Owned o (.stopped channel be :: rs)) :
    Owned { o with cancelled := channel.toList ++ o.cancelled } (.waiting be :: rs) := by
  obtain ⟨_, _, _, _, _, _, _, _, _, _, _, _, _⟩ := owned
  constructor <;> grind

/-- With the count of the wait group at zero there is no watchdog to wait for. -/
theorem Owned.wait (owned : Owned o (.waiting be :: rs)) (ended : o.live = 0) :
    Owned o (.closing be :: rs) := by
  obtain ⟨_, _, _, _, _, _, _, _, _, _, _, _, _⟩ := owned
  constructor <;> grind

theorem Owned.close (owned : Owned o (.closing be :: rs)) :
    Owned { o with closed := be.toList ++ o.closed } (.idle :: rs) := by
  obtain ⟨_, _, _, _, _, _, _, _, _, _, _, _, _⟩ := owned
  constructor <;> grind

theorem Owned.exit (owned : Owned o (.watching c :: rs)) (ended : c ∈ o.cancelled) :
    Owned { o with live := o.live - 1 } (.idle :: rs) := by
  obtain ⟨_, _, _, _, _, _, _, _, _, _, _, _, _⟩ := owned
  constructor <;> grind

/-- A move that disturbs no launch keeps everything owned. -/
theorem Owned.move {o' : Own} {r r' : Role} {new : List Role} (owned : Owned o (r :: rs))
    (moved : Move o r o' r' new) (free : ∀ be, r = .created be → o.backend = none)
    (calm : r = .halting → rs.countP Role.launching = 0) :
    Owned o' (r' :: (new ++ rs)) := by
  cases moved with
  | stay => exact owned
  | create => exact owned.create
  | publish => exact owned.publish (free _ rfl)
  | register => exact owned.register
  | spawn => exact owned.spawn
  | stop => exact owned.stop (calm rfl)
  | cancel => exact owned.cancel
  | wait ended => exact owned.wait ended
  | close => exact owned.close
  | exit ended => exact owned.exit ended

theorem owned_unused (fresh : ∀ r ∈ rs, r = .idle ∨ r = .halting) :
    Owned ⟨none, none, 0, [], 0, [], 0⟩ rs := by
  have none : ∀ q : Role → Bool, q .idle = false → q .halting = false → rs.countP q = 0 := by
    intro q idle halting
    refine List.countP_eq_zero.mpr fun r member => ?_
    rcases fresh r member with rfl | rfl <;> simp [idle, halting]
  have launching := none Role.launching rfl rfl
  have watches := none Role.watches rfl rfl
  constructor <;> grind

/-- Tasks that hold nothing: the engine owns its backend and its watchdog. -/
theorem Owned.settled (owned : Owned o rs) (rest : ∀ r ∈ rs, r = .idle ∨ ∃ c, r = .watching c) :
    (∀ b < o.backends, o.backend = some b ∨ b ∈ o.closed) ∧
      rs.countP Role.watches = if o.backend.isSome then 1 else 0 := by
  have calm : rs.any Role.waits = false := by
    rw [List.any_eq_false]
    intro r member
    rcases rest r member with rfl | ⟨c, rfl⟩ <;> simp [Role.waits]
  have mine : ∀ c, .watching c ∈ rs → o.cancel = some c := by
    intro c member
    by_contra other
    exact absurd (owned.foreign c member other) (by simp [calm])
  refine ⟨fun b made => ?_, ?_⟩
  · have empty : rs.any (Role.holds b) = false := by
      rw [List.any_eq_false]
      intro r member
      rcases rest r member with rfl | ⟨c, rfl⟩ <;> simp [Role.holds]
    rcases owned.held b made with current | closed | held
    · exact .inl current
    · exact .inr closed
    · exact absurd held (by simp [empty])
  · cases backend : o.backend with
    | none =>
      refine List.countP_eq_zero.mpr fun r member watches => ?_
      rcases rest r member with rfl | ⟨c, rfl⟩
      · cases watches
      · cases (owned.idle backend).symm.trans (mine c member)
    | some be =>
      have launched : rs.countP Role.launching = 0 := by
        refine List.countP_eq_zero.mpr fun r member => ?_
        rcases rest r member with rfl | ⟨c, rfl⟩ <;> simp [Role.launching]
      obtain ⟨c, current⟩ := Option.isSome_iff_exists.mp
          (owned.running (by simp [backend]) launched)
      rw [← owned.one c current]
      refine List.countP_congr fun r member => ?_
      rcases rest r member with rfl | ⟨c', rfl⟩
      · simp [Role.watches, Role.token]
      · have same : c' = c := Option.some.inj ((mine c' member).symm.trans current)
        simp [Role.watches, Role.token, same]

end moves

section refinement
variable {Key Addr Net : Type} (x : Parsers Key Addr Net)

def Shared.own (s : Shared) : Own :=
  ⟨s.engine.backend, s.engine.cancel, s.backends, s.closed, s.channels, s.cancelled, s.live⟩

def Running.role : Running → Role
  | .publish _ be => .created be
  | .register _ => .published
  | .spawn _ channel => .registered channel
  | .stop _ => .halting
  | .cancel _ channel be => .stopped channel be
  | .wait _ be => .waiting be
  | .close _ be => .closing be
  | .watch channel _ => .watching channel
  | .start _ | .create _ | .failing .. | .firstProbe _ | .settle _ | .returned _ | .exited => .idle

theorem firstProbe_owns (e : Engine) (probed : Probed) :
    (e.firstProbe probed).backend = e.backend ∧ (e.firstProbe probed).cancel = e.cancel := by
  cases probed with
  | error text => exact ⟨rfl, rfl⟩
  | ok p =>
    rw [Engine.firstProbe]
    by_cases none : p.handshake = 0
    · rw [if_pos none]
      exact ⟨rfl, rfl⟩
    · rw [if_neg none]
      exact ⟨rfl, rfl⟩

theorem Running.next_move (s : Shared) (t : Running) :
    Move s.own t.role (t.next x s).1.own (t.next x s).2.1.role ((t.next x s).2.2.map role) := by
  cases t with
  | start call =>
    rw [Running.next]
    split
    · exact .stay
    · unfold Engine.beginStart
      split
      · exact .stay
      · next began =>
        split at began
        · cases began
        · cases began
          exact .stay
  | create call =>
    rw [Running.next]
    split
    · exact .stay
    · exact .create
  | failing call text => exact .stay
  | publish call be => exact .publish
  | register call => exact .register
  | spawn call channel => exact .spawn
  | firstProbe call => exact .stay
  | settle call =>
    obtain ⟨backend, cancel⟩ := firstProbe_owns s.engine call.probed
    have same : (Running.next x s (.settle call)).1.own = s.own := by
      simp only [Running.next, Shared.own, backend, cancel]
    rw [same]
    exact .stay
  | stop call => exact .stop
  | cancel call channel be => exact .cancel
  | wait call be =>
    rw [Running.next]
    split
    · next ended => exact .wait ended
    · exact .stay
  | close call be => cases be <;> exact .close
  | returned err => exact .stay
  | watch channel w =>
    rw [Running.next]
    rcases w.next_cases s channel with ⟨e, w', shared, moved, frame⟩ | ⟨ended, shared, moved⟩
    · have same : ({ s with engine := e } : Shared).own = s.own := by
        simp only [Shared.own, frame.backend, frame.cancel]
      rw [shared, moved, same]
      exact .stay
    · rw [shared, moved]
      exact .exit ended
  | exited => exact .stay

end refinement

end VeilNet.Source.Tunnel
