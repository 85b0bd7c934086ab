import Mathlib.Data.Finset.Card
import Mathlib.Data.List.AList
import Mathlib.Algebra.BigOperators.Group.List.Basic
import Mathlib.Algebra.Order.Group.Int
import Mathlib.Algebra.Order.BigOperators.Group.List
import Mathlib.Algebra.Order.Ring.Int

/-!
Go maps as association lists with distinct keys. `range` visits the entries in an unspecified
order, so code that ranges over a map takes a `RangeOrder`.
-/
namespace VeilNet.Lib

abbrev GoMap (κ ν : Type) := AList fun _ : κ => ν

/-- One order in which `range` may visit the entries of a map. -/
structure RangeOrder where
  visit : {α : Type} → List α → List α
  perm : ∀ {α : Type} (entries : List α), (visit entries).Perm entries

/-- Insertion order, and its reverse. -/
def RangeOrder.forward : RangeOrder := ⟨fun l => l, fun l => .refl l⟩

def RangeOrder.backward : RangeOrder := ⟨fun l => l.reverse, fun l => l.reverse_perm⟩

@[simp] theorem RangeOrder.mem_visit (order : RangeOrder) {α : Type} {a : α} {l : List α} :
    a ∈ order.visit l ↔ a ∈ l :=
  (order.perm l).mem_iff

namespace GoMap
variable {κ ν : Type} [DecidableEq κ]

def values (m : GoMap κ ν) : List ν := m.entries.map (·.2)

variable {m : GoMap κ ν} {v : ν}

theorem mem_values : v ∈ values m ↔ ∃ k, m.lookup k = some v := by
  constructor
  · intro member
    obtain ⟨⟨k, w⟩, entry, rfl⟩ := List.mem_map.mp member
    exact ⟨k, AList.mem_lookup_iff.mpr entry⟩
  · rintro ⟨k, found⟩
    exact List.mem_map.mpr ⟨⟨k, v⟩, AList.mem_lookup_iff.mp found, rfl⟩

/-- A statement about all entries, as one about the list of entries. -/
theorem forall_lookup {P : κ → ν → Prop} :
    (∀ k v, m.lookup k = some v → P k v) ↔ ∀ e ∈ m.entries, P e.1 e.2 := by
  constructor
  · intro holds e member
    exact holds e.1 e.2 (AList.mem_lookup_iff.mpr member)
  · intro holds k v found
    exact holds ⟨k, v⟩ (AList.mem_lookup_iff.mp found)

variable {k : κ}

/-- An entry after a store is the stored one or an old one. -/
theorem lookup_insert_cases {k' : κ} {v' : ν} (found : (m.insert k v).lookup k' = some v') :
    (k' = k ∧ v' = v) ∨ (k' ≠ k ∧ m.lookup k' = some v') := by
  by_cases same : k' = k
  · rw [same, AList.lookup_insert] at found
    exact .inl ⟨same, (Option.some.inj found).symm⟩
  · rw [AList.lookup_insert_ne same] at found
    exact .inr ⟨same, found⟩

/-- `if prev, dup := m[k]; dup { return err }` and then `m[k] = v`. -/
def enterNew {ε : Type} (m : GoMap κ ν) (k : κ) (v : ν) (refuse : ν → ε) : Except ε (GoMap κ ν) :=
  match m.lookup k with
  | some prev => .error (refuse prev)
  | none => .ok (m.insert k v)

theorem enterNew_ok_iff {ε : Type} {m' : GoMap κ ν} {refuse : ν → ε} :
    enterNew m k v refuse = .ok m' ↔ k ∉ m ∧ m' = m.insert k v := by
  unfold enterNew
  cases found : m.lookup k with
  | none =>
    have absent : k ∉ m := AList.lookup_eq_none.mp found
    simp [absent, eq_comm]
  | some prev =>
    have present : k ∈ m := AList.lookup_isSome.mp (by rw [found]; rfl)
    simp [present]

variable (order : RangeOrder)

/-- A `range` loop that deletes the entries it selects: the deleted entries in
the order visited, and the map that is left. -/
def removeWhere (select : κ → ν → Bool) (m : GoMap κ ν) :
    List (Σ _ : κ, ν) × GoMap κ ν :=
  let gone := (order.visit m.entries).filter fun e => select e.1 e.2
  (gone, gone.foldl (fun acc e => acc.erase e.1) m)

theorem lookup_foldl_erase (gone : List (Σ _ : κ, ν)) (m : GoMap κ ν) (k : κ) :
    (gone.foldl (fun acc e => acc.erase e.1) m).lookup k =
      if k ∈ gone.map (·.1) then none else m.lookup k := by
  induction gone generalizing m with
  | nil => simp
  | cons e rest ih =>
    rw [List.foldl_cons, ih]
    by_cases same : k = e.1
    · subst same
      simp
    · simp only [List.map_cons, List.mem_cons, same, false_or, AList.lookup_erase_ne same]

/-- A loop that stores one value under the keys of what it visits. -/
theorem lookup_foldl_insert {α : Type} (key : α → κ) (l : List α) (m : GoMap κ ν) (v : ν) (k : κ) :
    (l.foldl (fun acc a => acc.insert (key a) v) m).lookup k =
      if k ∈ l.map key then some v else m.lookup k := by
  induction l generalizing m with
  | nil => simp
  | cons a rest ih =>
    rw [List.foldl_cons, ih]
    by_cases same : k = key a
    · subst same
      simp
    · simp [same]

theorem mem_removeWhere {order : RangeOrder} {select : κ → ν → Bool} :
    ⟨k, v⟩ ∈ (removeWhere order select m).1 ↔ m.lookup k = some v ∧ select k v = true := by
  simp only [removeWhere, List.mem_filter, RangeOrder.mem_visit, ← AList.mem_lookup_iff,
    Option.mem_def]

/-- The loop leaves exactly the entries it does not select, whatever the order. -/
theorem lookup_removeWhere (select : κ → ν → Bool) (m : GoMap κ ν) (k : κ) :
    (removeWhere order select m).2.lookup k = (m.lookup k).filter fun v => !select k v := by
  have left := lookup_foldl_erase (removeWhere order select m).1 m k
  change ((removeWhere order select m).1.foldl (fun acc e => acc.erase e.1) m).lookup k = _
  rw [left]
  cases found : m.lookup k with
  | none => simp
  | some v =>
    have deleted : k ∈ (removeWhere order select m).1.map (·.1) ↔ select k v = true := by
      constructor
      · intro member
        obtain ⟨⟨k', w⟩, entry, rfl⟩ := List.mem_map.mp member
        obtain ⟨same, selected⟩ := mem_removeWhere.mp entry
        rw [found] at same
        obtain rfl := Option.some.inj same
        exact selected
      · intro selected
        exact List.mem_map.mpr ⟨⟨k, v⟩, mem_removeWhere.mpr ⟨found, selected⟩, rfl⟩
    by_cases selected : select k v = true
    · rw [if_pos (deleted.mpr selected)]
      simp [Option.filter, selected]
    · rw [if_neg fun member => selected (deleted.mp member)]
      simp [Option.filter, selected]

theorem removeWhere_sublist (select : κ → ν → Bool) (m : GoMap κ ν) :
    (removeWhere order select m).2.entries.Sublist m.entries := by
  unfold removeWhere
  dsimp only
  induction (order.visit m.entries).filter (fun e => select e.1 e.2) generalizing m with
  | nil => exact List.Sublist.refl _
  | cons e rest ih => exact (ih (m.erase e.1)).trans (List.kerase_sublist e.1 m.entries)

/-- A loop that stores entries with distinct keys. -/
theorem lookup_foldl_insert_entries {l : List (Σ _ : κ, ν)} (distinct : l.NodupKeys) (m : GoMap κ ν)
    (k : κ) :
    (l.foldl (fun acc e => acc.insert e.1 e.2) m).lookup k = (l.dlookup k).or (m.lookup k) := by
  induction l generalizing m with
  | nil => rfl
  | cons e rest ih =>
    obtain ⟨key, value⟩ := e
    obtain ⟨fresh, distinct⟩ := List.nodupKeys_cons.mp distinct
    rw [List.foldl_cons, ih distinct]
    by_cases same : k = key
    · subst same
      rw [List.dlookup_eq_none.mpr fresh, AList.lookup_insert, List.dlookup_cons_eq]
      rfl
    · rw [AList.lookup_insert_ne same, List.dlookup_cons_ne rest ⟨key, value⟩ same]

/-- Visiting a map in any order and storing its entries into an empty one copies it. -/
theorem lookup_copy (m : GoMap κ ν) (k : κ) :
    ((order.visit m.entries).foldl (fun acc e => acc.insert e.1 e.2) (∅ : GoMap κ ν)).lookup k =
      m.lookup k := by
  have perm := order.perm m.entries
  have distinct : (order.visit m.entries).NodupKeys := (List.perm_nodupKeys perm).mpr m.nodupKeys
  rw [lookup_foldl_insert_entries distinct, AList.lookup_empty, Option.or_none]
  exact List.perm_dlookup k distinct perm

/-- The keys whose values are selected. -/
def keysWhere (select : ν → Bool) (m : GoMap κ ν) : Finset κ :=
  ((m.entries.filter fun e => select e.2).map (·.1)).toFinset

theorem mem_keysWhere {select : ν → Bool} :
    k ∈ keysWhere select m ↔ ∃ v, m.lookup k = some v ∧ select v = true := by
  simp only [keysWhere, List.mem_toFinset, List.mem_map, List.mem_filter, Sigma.exists,
    exists_and_right, exists_eq_right, ← AList.mem_lookup_iff, Option.mem_def]

/-- Each selected value has a key of its own. -/
theorem card_keysWhere (select : ν → Bool) (m : GoMap κ ν) :
    (keysWhere select m).card = (values m).countP select := by
  have distinct : ((m.entries.filter fun e => select e.2).map (·.1)).Nodup :=
    List.NodupKeys.sublist List.filter_sublist m.nodupKeys
  rw [keysWhere, List.toFinset_card_of_nodup distinct, List.length_map, values, List.countP_map,
    List.countP_eq_length_filter]
  rfl

/-- Sets that agree off one element and have equally many agree on it too. -/
theorem mem_iff_of_card_eq {A B : Finset κ} (off : ∀ j ≠ k, j ∈ A ↔ j ∈ B)
    (card : A.card = B.card) : k ∈ A ↔ k ∈ B := by
  have rest : A.erase k = B.erase k := by
    ext j
    by_cases same : j = k
    · simp [same]
    · simp [same, off j same]
  have cards := congrArg Finset.card rest
  by_cases inA : k ∈ A <;> by_cases inB : k ∈ B
  · exact iff_of_true inA inB
  · rw [Finset.card_erase_of_mem inA, Finset.erase_eq_of_notMem inB] at cards
    have some := Finset.card_pos.mpr ⟨k, inA⟩
    omega
  · rw [Finset.card_erase_of_mem inB, Finset.erase_eq_of_notMem inA] at cards
    have some := Finset.card_pos.mpr ⟨k, inB⟩
    omega
  · exact iff_of_false inA inB

/-- The sum of `f` over the values of a map. -/
def sumBy (f : ν → ℤ) (m : GoMap κ ν) : ℤ := ((values m).map f).sum

theorem sumBy_insert_new (f : ν → ℤ) (v : ν) (absent : m.lookup k = none) :
    sumBy f (m.insert k v) = f v + sumBy f m := by
  unfold sumBy values
  rw [AList.entries_insert_of_notMem (AList.lookup_eq_none.mp absent)]
  simp

/-- Overwriting the value of a present key. -/
theorem sumBy_insert_old (f : ν → ℤ) {old : ν} (v : ν) (present : m.lookup k = some old) :
    sumBy f (m.insert k v) + f old = sumBy f m + f v := by
  have member : (⟨k, old⟩ : Σ _ : κ, ν) ∈ m.entries := AList.mem_lookup_iff.mp present
  obtain ⟨w, front, back, _, split, erased⟩ :=
    List.exists_of_kerase (List.mem_keys_of_mem member)
  have same : w = old := by
    have entry : (⟨k, w⟩ : Σ _ : κ, ν) ∈ m.entries := by rw [split]; simp
    have found : m.lookup k = some w := AList.mem_lookup_iff.mpr entry
    rw [present] at found
    exact (Option.some.inj found).symm
  subst same
  unfold sumBy values
  rw [AList.entries_insert, erased, split]
  simp only [List.map_cons, List.map_append, List.sum_cons, List.sum_append]
  omega

/-- When each value names its key, the values name every key once. -/
theorem map_key_values {key : ν → κ}
    (keyed : ∀ k v, m.lookup k = some v → key v = k) : (values m).map key = m.keys := by
  unfold values AList.keys List.keys
  rw [List.map_map]
  apply List.map_congr_left
  intro e member
  exact keyed e.1 e.2 (AList.mem_lookup_iff.mpr member)

omit [DecidableEq κ] in
theorem sum_visit (f : ν → ℤ) (m : GoMap κ ν) :
    ((order.visit (values m)).map f).sum = sumBy f m :=
  ((order.perm (values m)).map f).sum_eq

omit [DecidableEq κ] in
/-- A `range` loop that adds up the selected values adds up the whole map. -/
theorem sum_filter_visit (select : ν → Bool) (f : ν → ℤ) (m : GoMap κ ν) :
    (((order.visit (values m)).filter select).map f).sum =
      sumBy (fun v => if select v then f v else 0) m := by
  have visited := ((order.perm (values m)).filter select).map f
  rw [visited.sum_eq]
  unfold sumBy
  induction values m with
  | nil => rfl
  | cons v rest ih =>
    by_cases selected : select v = true
    · simp [selected, ih]
    · simp [selected, ih]

omit [DecidableEq κ] in
theorem sumBy_le_sumBy {f g : ν → ℤ} (le : ∀ v ∈ values m, f v ≤ g v) : sumBy f m ≤ sumBy g m := by
  unfold sumBy
  exact List.sum_le_sum le

end GoMap

end VeilNet.Lib
