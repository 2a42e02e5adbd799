/-
  A ledger of numbered objects at reusable addresses.

  Every object created gets the next serial number; `number a` is the number of the object that
  lives at the address `a`, `deleted` lists the numbers of the objects deleted so far, and `created`
  counts all of them.  `Ledger` says that these agree: a number is alive at one address or deleted
  once, never both, and every number given out is one of the two.

  A `Handle` is an address with a number that was given out for an object there.  The address may
  be reused after the object is deleted; the handle then points to nothing, never to the newer
  object (`Handle.of_alive`).

  An object is created by `allocate` at a free address and deleted by `delete`.  Both keep the
  ledger, and a handle stays one through both; that is all that the owner of the objects has to
  know about memory.
-/
import Mathlib.Data.List.Nodup
import Mathlib.Data.List.Perm.Subperm
import Mathlib.Logic.Function.Basic

namespace Foundation

/-- The live numbers and the deleted ones are the numbers given out, each once. -/
structure Ledger {α : Type} (number : α → Option Nat) (deleted : List Nat) (created : Nat) :
    Prop where
  range : ∀ {a n}, number a = some n → 0 < n ∧ n ≤ created
  unique : ∀ {a b n}, number a = some n → number b = some n → a = b
  deleted_nodup : deleted.Nodup
  deleted_range : ∀ {n}, n ∈ deleted → 0 < n ∧ n ≤ created
  dead : ∀ {a n}, n ∈ deleted → number a ≠ some n
  all : ∀ {n}, 0 < n → n ≤ created → n ∈ deleted ∨ ∃ a, number a = some n

/-- `n` was given out for an object at `a`. The object may be gone, and another one may be at
    `a` by now; but no object anywhere else has the number. -/
structure Handle {α : Type} (number : α → Option Nat) (created : Nat) (a : α) (n : Nat) : Prop where
  range : 0 < n ∧ n ≤ created
  at_home : ∀ {b}, number b = some n → b = a

section Ledger

variable {α : Type} {number : α → Option Nat} {deleted : List Nat} {created : Nat}

/-- The empty ledger: no record, no live object. -/
theorem Ledger.start : Ledger (fun _ : α => none) [] 0 where
  range := by
    intro a n h
    cases h
  unique := by
    intro a b n h
    cases h
  deleted_nodup := List.nodup_nil
  deleted_range := by
    intro n h
    exact absurd h List.not_mem_nil
  dead := by
    intro a n h
    exact absurd h List.not_mem_nil
  all := by
    intro n h0 hn
    omega

/-- There are no more objects than were created. -/
theorem Ledger.length_le (h : Ledger number deleted created) {l : List α} (hl : l.Nodup)
    (hlive : ∀ a ∈ l, ∃ n, number a = some n) : l.length ≤ created := by
  have hnodup : (l.map number).Nodup := by
    refine (List.nodup_map_iff_inj_on hl).mpr fun a ha b _ hab => ?_
    obtain ⟨n, hn⟩ := hlive a ha
    exact h.unique hn (hab ▸ hn)
  have hsub : l.map number ⊆ (List.range' 1 created).map some := by
    intro x hx
    obtain ⟨a, ha, rfl⟩ := List.mem_map.mp hx
    obtain ⟨n, hn⟩ := hlive a ha
    have hrange := h.range hn
    rw [hn]
    refine List.mem_map_of_mem (List.mem_range'_1.mpr ?_)
    omega
  have hle := (List.subperm_of_subset hnodup hsub).length_le
  rwa [List.length_map, List.length_map, List.length_range'] at hle

variable [DecidableEq α] {a b : α} {n m : Nat}

/-- A lookup behind one write: it is the written entry, or one that was there before. -/
theorem update_eq_some {v : Option Nat} (h : Function.update number a v b = some n) :
    b = a ∧ v = some n ∨ b ≠ a ∧ number b = some n := by
  by_cases hb : b = a
  · subst hb
    exact Or.inl ⟨rfl, by rwa [Function.update_self] at h⟩
  · exact Or.inr ⟨hb, by rwa [Function.update_of_ne hb] at h⟩

/-- A new object at a free address. -/
theorem Ledger.allocate (h : Ledger number deleted created) (ha : number a = none) :
    Ledger (Function.update number a (some (created + 1))) deleted (created + 1) where
  range := by
    intro b n hb
    rcases update_eq_some hb with ⟨-, hn⟩ | ⟨-, hn⟩
    · cases hn
      omega
    · have := h.range hn
      omega
  unique := by
    intro b c n hb hc
    -- the new number is larger than the old ones
    rcases update_eq_some hb with ⟨rfl, hn⟩ | ⟨-, hn⟩ <;>
      rcases update_eq_some hc with ⟨rfl, hm⟩ | ⟨-, hm⟩
    · rfl
    · cases hn
      have := h.range hm
      omega
    · cases hm
      have := h.range hn
      omega
    · exact h.unique hn hm
  deleted_nodup := h.deleted_nodup
  deleted_range := by
    intro n hn
    have := h.deleted_range hn
    omega
  dead := by
    intro b n hn hb
    rcases update_eq_some hb with ⟨-, hm⟩ | ⟨-, hm⟩
    · cases hm
      have := h.deleted_range hn
      omega
    · exact h.dead hn hm
  all := by
    intro n h0 hn
    by_cases hlast : n = created + 1
    · exact Or.inr ⟨a, by rw [Function.update_self, hlast]⟩
    · rcases h.all h0 (by omega) with hd | ⟨b, hb⟩
      · exact Or.inl hd
      · refine Or.inr ⟨b, ?_⟩
        rwa [Function.update_of_ne]
        rintro rfl
        rw [ha] at hb
        cases hb

/-- The object at `a` is deleted. -/
theorem Ledger.delete (h : Ledger number deleted created) (ha : number a = some n) :
    Ledger (Function.update number a none) (deleted ++ [n]) created where
  range := by
    intro b m hb
    rcases update_eq_some hb with ⟨-, hm⟩ | ⟨-, hm⟩
    · cases hm
    · exact h.range hm
  unique := by
    intro b c m hb hc
    rcases update_eq_some hb with ⟨-, hm⟩ | ⟨-, hm⟩
    · cases hm
    · rcases update_eq_some hc with ⟨-, hk⟩ | ⟨-, hk⟩
      · cases hk
      · exact h.unique hm hk
  deleted_nodup := by
    rw [List.nodup_append_comm, List.singleton_append]
    exact List.nodup_cons.mpr ⟨fun hn => h.dead hn ha, h.deleted_nodup⟩
  deleted_range := by
    intro m hm
    rcases List.mem_append.mp hm with hm | hm
    · exact h.deleted_range hm
    · rw [List.mem_singleton.mp hm]
      exact h.range ha
  dead := by
    intro b m hm hb
    rcases update_eq_some hb with ⟨-, hk⟩ | ⟨hne, hk⟩
    · cases hk
    · rcases List.mem_append.mp hm with hm | hm
      · exact h.dead hm hk
      · -- no second object has the number of the one at `a`
        rw [List.mem_singleton.mp hm] at hk
        exact hne (h.unique hk ha)
  -- the numbers of the dead are those before and `n`
  all := by
    intro m h0 hm
    rcases h.all h0 hm with hd | ⟨b, hb⟩
    · exact Or.inl (List.mem_append_left _ hd)
    · by_cases hba : b = a
      · subst hba
        obtain rfl : m = n := Option.some.inj (hb.symm.trans ha)
        exact Or.inl (List.mem_append_right _ (List.mem_singleton_self m))
      · exact Or.inr ⟨b, by rwa [Function.update_of_ne hba]⟩

/-- The number of a new object is a handle to it. -/
theorem Handle.of_allocate (h : Ledger number deleted created) :
    Handle (Function.update number a (some (created + 1))) (created + 1) a (created + 1) where
  range := by omega
  at_home := by
    intro b hb
    rcases update_eq_some hb with ⟨rfl, -⟩ | ⟨-, hn⟩
    · rfl
    · have := h.range hn
      omega

/-- A handle on another object outlives an allocation. It has the older number, even where the
    address was used before. -/
theorem Handle.allocate (h : Handle number created b n) :
    Handle (Function.update number a (some (created + 1))) (created + 1) b n where
  range := by
    have := h.range
    omega
  at_home := by
    intro c hc
    rcases update_eq_some hc with ⟨-, hn⟩ | ⟨-, hn⟩
    · cases hn
      have := h.range
      omega
    · exact h.at_home hn

omit [DecidableEq α] in
/-- Deletions leave a handle what it is. -/
theorem Handle.of_alive {number' : α → Option Nat} (h : Handle number created a n)
    (hsub : ∀ {b m}, number' b = some m → number b = some m) : Handle number' created a n :=
  ⟨h.range, fun hb => h.at_home (hsub hb)⟩

end Ledger

end Foundation
