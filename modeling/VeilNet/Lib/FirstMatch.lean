import VeilNet.Lib.Run

/-!
Chains of rules under first-match semantics, and the edits that build them. Rules that are
appended behind a rule which matches a packet say nothing about it.
-/
namespace VeilNet.Lib.FirstMatch

variable {ρ π ν : Type*}

/-- The target of the first rule that matches; `policy` when none does. -/
def verdict (hits : ρ → π → Bool) (target : ρ → ν) (policy : ν) : List ρ → π → ν
  | [], _ => policy
  | r :: rest, p => if hits r p then target r else verdict hits target policy rest p

/-- `ensure` appends a rule that is not there yet. -/
inductive Edit (ρ : Type*) where
  | append (r : ρ)
  | insert (r : ρ)
  | ensure (r : ρ)

def edit [DecidableEq ρ] (rules : List ρ) : Edit ρ → List ρ
  | .append r => rules ++ [r]
  | .insert r => r :: rules
  | .ensure r => if r ∈ rules then rules else rules ++ [r]

/-- Some rule with target `v` matches every packet of `domain`, and every rule
before it has target `v` too. -/
def Settles (hits : ρ → π → Bool) (target : ρ → ν) (domain : π → Prop) (v : ν) (rules : List ρ) :
    Prop :=
  ∃ front r back, rules = front ++ r :: back ∧ (∀ r' ∈ front, target r' = v) ∧ target r = v ∧
    ∀ p, domain p → hits r p = true

variable {hits : ρ → π → Bool} {target : ρ → ν} {policy v : ν} {domain : π → Prop} {rules : List ρ}

theorem verdict_of_front {front back : List ρ} {r : ρ} {p : π}
    (agree : ∀ r' ∈ front, target r' = v) (last : target r = v) (matched : hits r p = true) :
    verdict hits target policy (front ++ r :: back) p = v := by
  induction front with
  | nil =>
    rw [List.nil_append, verdict, if_pos matched]
    exact last
  | cons r' front ih =>
    rw [List.cons_append, verdict]
    split
    · exact agree r' List.mem_cons_self
    · exact ih fun r'' member => agree r'' (List.mem_cons_of_mem r' member)

/-- When all rules have one target, their order does not matter. -/
theorem verdict_const (p : π) :
    verdict hits (fun _ => v) policy rules p = if rules.any (hits · p) then v else policy := by
  induction rules with
  | nil => rfl
  | cons r rest ih =>
    rw [verdict, ih, List.any_cons]
    cases hits r p <;> rfl

variable (h : Settles hits target domain v rules)
include h

theorem Settles.verdict {p : π} (inside : domain p) :
    verdict hits target policy rules p = v := by
  obtain ⟨front, r, back, rfl, agree, last, matched⟩ := h
  exact verdict_of_front agree last (matched p inside)

theorem Settles.append (r : ρ) :
    Settles hits target domain v (rules ++ [r]) := by
  obtain ⟨front, r', back, rfl, settled⟩ := h
  exact ⟨front, r', back ++ [r], by simp, settled⟩

theorem Settles.insert {r : ρ} (same : target r = v) :
    Settles hits target domain v (r :: rules) := by
  obtain ⟨front, r', back, rfl, agree, settled⟩ := h
  refine ⟨r :: front, r', back, rfl, fun r'' member => ?_, settled⟩
  rcases List.mem_cons.mp member with rfl | earlier
  · exact same
  · exact agree r'' earlier

/-- Whatever is appended, and as long as only rules with the same target are
inserted, what is settled stays settled. -/
theorem Settles.edit [DecidableEq ρ] {e : Edit ρ}
    (same : ∀ r, e = .insert r → target r = v) :
    Settles hits target domain v (edit rules e) := by
  cases e with
  | append r => exact h.append r
  | insert r => exact h.insert (same r rfl)
  | ensure r =>
    rw [FirstMatch.edit]
    split
    · exact h
    · exact h.append r

omit h in
theorem settles_singleton {r : ρ} (last : target r = v)
    (matched : ∀ p, domain p → hits r p = true) : Settles hits target domain v [r] :=
  ⟨[], r, [], rfl, List.forall_mem_nil _, last, matched⟩

end VeilNet.Lib.FirstMatch
