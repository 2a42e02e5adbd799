/-
  Windows of a history, and what must not happen in them.

  A history is a list of entries, in the order they were made.  An entry that `opens` begins a
  window, and the next entry that `closes` ends it.  `Silent` says that no entry of a kind is made
  inside a window: none that is `bad` comes between an opening entry and the next closing one.

  Histories grow by one entry at a time, and `silent_append_singleton` is the rule for that: an
  entry that is bad may be added when the history does not end in a window.
-/
import Mathlib.Data.List.Basic
import Mathlib.Data.List.Infix

namespace Foundation

section Windows

variable {α : Type} (opens closes bad : α → Prop)

/-- The history ends in a window: some entry opened one, and no entry since then has closed it. -/
def InWindow (history : List α) : Prop :=
  ∃ before x after, history = before ++ x :: after ∧ opens x ∧ ∀ y ∈ after, ¬ closes y

/-- Nothing bad happens in a window. It is a statement about every prefix of the history, so
    it is kept when the history grows by an entry that is not bad. -/
def Silent (history : List α) : Prop :=
  ∀ before x after, history = before ++ x :: after → bad x → ¬ InWindow opens closes before

variable {opens closes bad} {history : List α}

/-- Nothing was opened yet. -/
theorem not_inWindow_nil : ¬ InWindow opens closes [] := by
  rintro ⟨before, x, after, h, -⟩
  exact List.append_ne_nil_of_right_ne_nil before (List.cons_ne_nil x after) h.symm

/-- Nothing bad was seen yet. -/
theorem silent_nil : Silent opens closes bad [] := by
  intro before x after h
  exact absurd h.symm (List.append_ne_nil_of_right_ne_nil before (List.cons_ne_nil x after))

/-- A list with a last entry, split at some entry. -/
theorem append_singleton_eq_iff {x y : α} {before after : List α} :
    history ++ [y] = before ++ x :: after ↔
      (after = [] ∧ y = x ∧ history = before) ∨
        ∃ rest, after = rest ++ [y] ∧ history = before ++ x :: rest := by
  rcases List.eq_nil_or_concat after with rfl | ⟨rest, z, rfl⟩
  · constructor
    · intro h
      obtain ⟨rfl, rfl⟩ := List.append_singleton_inj.mp h
      exact .inl ⟨rfl, rfl, rfl⟩
    · rintro (⟨-, rfl, rfl⟩ | ⟨rest, hnil, -⟩)
      · rfl
      · simp at hnil
  · rw [List.concat_eq_append, ← List.cons_append, ← List.append_assoc, List.append_singleton_inj]
    constructor
    · rintro ⟨rfl, rfl⟩
      exact .inr ⟨rest, rfl, rfl⟩
    · rintro (⟨hnil, -⟩ | ⟨rest', hrest, hhistory⟩)
      · simp at hnil
      · obtain ⟨rfl, rfl⟩ := List.append_singleton_inj.mp hrest
        exact ⟨hhistory, rfl⟩

/-- Whether a window is open is decided by the last entry that opened or closed one, so one more
    entry is enough to know. -/
theorem inWindow_append_singleton {y : α} :
    InWindow opens closes (history ++ [y]) ↔
      opens y ∨ ¬ closes y ∧ InWindow opens closes history := by
  constructor
  · rintro ⟨before, x, after, h, hopens, hafter⟩
    rcases append_singleton_eq_iff.mp h with ⟨rfl, rfl, rfl⟩ | ⟨rest, rfl, rfl⟩
    · exact .inl hopens
    · refine .inr ⟨hafter y (by simp), before, x, rest, rfl, hopens, ?_⟩
      intro z hz
      exact hafter z (List.mem_append_left _ hz)
  · rintro (hopens | ⟨hcloses, before, x, after, rfl, hopens, hafter⟩)
    · exact ⟨history, y, [], rfl, hopens, fun z hz => absurd hz List.not_mem_nil⟩
    · refine ⟨before, x, after ++ [y], by simp, hopens, ?_⟩
      intro z hz
      rcases List.mem_append.mp hz with hz | hz
      · exact hafter z hz
      · rwa [List.mem_singleton.mp hz]

/-- **One entry more.** -/
theorem silent_append_singleton {y : α} :
    Silent opens closes bad (history ++ [y]) ↔
      Silent opens closes bad history ∧ (bad y → ¬ InWindow opens closes history) := by
  constructor
  · intro h
    refine ⟨?_, fun hbad => h history y [] rfl hbad⟩
    rintro before x after rfl hbad
    exact h before x (after ++ [y]) (by simp) hbad
  · rintro ⟨h, hy⟩ before x after hsplit hbad
    rcases append_singleton_eq_iff.mp hsplit with ⟨-, rfl, rfl⟩ | ⟨rest, rfl, rfl⟩
    · exact hy hbad
    · exact h before x rest rfl hbad

/-- Outside a window anything may follow, as long as no window is opened. -/
theorem Silent.append (more : List α) : ∀ {history : List α}, Silent opens closes bad history →
    ¬ InWindow opens closes history → (∀ x ∈ more, ¬ opens x) →
    Silent opens closes bad (history ++ more) ∧ ¬ InWindow opens closes (history ++ more) := by
  induction more with
  | nil =>
    intro history h hout _
    rw [List.append_nil]
    exact ⟨h, hout⟩
  | cons y more ih =>
    intro history h hout hmore
    have hnot : ¬ InWindow opens closes (history ++ [y]) := by
      rw [inWindow_append_singleton]
      rintro (hopens | ⟨-, hin⟩)
      · exact hmore y List.mem_cons_self hopens
      · exact hout hin
    have hall := ih (silent_append_singleton.mpr ⟨h, fun _ => hout⟩) hnot fun x hx =>
      hmore x (List.mem_cons_of_mem y hx)
    rwa [List.append_assoc, List.singleton_append] at hall

end Windows

end Foundation
