import Mathlib.Data.List.Nodup
import MailMerge.Text.Basic

/-!
# Tables with each name once

A table is filled entry by entry, and a name that is there already keeps its place. So a table that
has each name once goes on having each name once. In a table into which another one has been written
a name has the value that it has there, and its own value only if it has none there.

* `forall_upsert` and `forall_foldl_upsert` — what holds of all entries goes on to hold;
* `nodup_names_upsert` and `nodup_names_foldl_upsert` — each name goes on to stand once;
* `lookup_foldl_upsert` — the entries that were written last are found first;
* `lookup_of_perm` — in what order the entries stand makes no difference.
-/

namespace MailMerge

section Entries

variable {α β γ : Type} [DecidableEq α] {name other : α} {value : β} {table : List (α × β)}
  {P : α × β → Prop}

/-! ### Entries -/

theorem forall_upsert (h : ∀ entry ∈ table, P entry) (hvalue : P (name, value)) :
    ∀ entry ∈ upsert name value table, P entry := by
  induction table with
  | nil => exact List.forall_mem_singleton.2 hvalue
  | cons first table ih =>
    obtain ⟨hfirst, htable⟩ := List.forall_mem_cons.1 h
    rw [upsert]
    split
    case isTrue heq => exact List.forall_mem_cons.2 ⟨heq ▸ hvalue, htable⟩
    case isFalse => exact List.forall_mem_cons.2 ⟨hfirst, ih htable⟩

theorem forall_foldl_upsert {entries : List γ} {key : γ → α} {render : γ → β}
    (h : ∀ entry ∈ table, P entry) (hrender : ∀ e ∈ entries, P (key e, render e)) :
    ∀ entry ∈ entries.foldl (fun table e => upsert (key e) (render e) table) table, P entry := by
  induction entries generalizing table with
  | nil => exact h
  | cons e entries ih =>
    obtain ⟨he, hentries⟩ := List.forall_mem_cons.1 hrender
    exact ih (forall_upsert h he) hentries

/-! ### Names -/

/-- A name that is set in a table **stands in it**, together with the names that were there. -/
theorem mem_names_upsert :
    other ∈ (upsert name value table).map Prod.fst ↔ other = name ∨ other ∈ table.map Prod.fst := by
  induction table with
  | nil => simp [upsert]
  | cons entry table ih =>
    obtain ⟨n, v⟩ := entry
    rw [upsert]
    split
    case isTrue h => simp [h]
    case isFalse => simp only [List.map_cons, List.mem_cons, ih, or_left_comm]

theorem nodup_names_upsert (name : α) (value : β) (h : (table.map Prod.fst).Nodup) :
    ((upsert name value table).map Prod.fst).Nodup := by
  induction table with
  | nil => simp [upsert]
  | cons entry table ih =>
    obtain ⟨n, v⟩ := entry
    obtain ⟨hn, htable⟩ := List.nodup_cons.1 h
    rw [upsert]
    split
    case isTrue => exact List.nodup_cons.2 ⟨hn, htable⟩
    case isFalse hne =>
      refine List.nodup_cons.2 ⟨fun hmem => ?_, ih htable⟩
      exact (mem_names_upsert.1 hmem).elim hne hn

/-- The names of a table stay **where they are**, and a new one goes behind them. -/
theorem names_upsert (name : α) (value : β) (table : List (α × β)) :
    (upsert name value table).map Prod.fst =
      if name ∈ table.map Prod.fst then table.map Prod.fst else table.map Prod.fst ++ [name] := by
  induction table with
  | nil => rfl
  | cons entry table ih =>
    obtain ⟨n, v⟩ := entry
    rw [upsert, List.map_cons]
    by_cases heq : n = name
    · rw [if_pos heq, heq, if_pos List.mem_cons_self, List.map_cons]
    · rw [if_neg heq, List.map_cons, ih]
      by_cases hmem : name ∈ table.map Prod.fst
      · rw [if_pos hmem, if_pos (List.mem_cons_of_mem n hmem)]
      · rw [if_neg hmem, if_neg, List.cons_append]
        intro h
        exact (List.mem_cons.1 h).elim (fun h => heq h.symm) hmem

/-- Entries of other names in front **are passed over**. -/
theorem upsert_append_of_not_mem (h : name ∉ table.map Prod.fst) (value : β) (behind : List (α × β)) :
    upsert name value (table ++ behind) = table ++ upsert name value behind := by
  induction table with
  | nil => rfl
  | cons entry table ih =>
    rw [List.map_cons, List.mem_cons, not_or] at h
    rw [List.cons_append, upsert, if_neg fun heq => h.1 heq.symm, ih h.2, List.cons_append]

theorem upsert_of_not_mem (h : name ∉ table.map Prod.fst) (value : β) :
    upsert name value table = table ++ [(name, value)] := by
  have happend := upsert_append_of_not_mem h value []
  rw [List.append_nil] at happend
  exact happend

/-- Entries of different names, none of which stands in a table, **go behind it** one after another. -/
theorem foldl_upsert_of_nodup {entries : List γ} {key : γ → α} {render : γ → β}
    (h : (table.map Prod.fst ++ entries.map key).Nodup) :
    entries.foldl (fun table e => upsert (key e) (render e) table) table =
      table ++ entries.map fun e => (key e, render e) := by
  induction entries generalizing table with
  | nil => rw [List.foldl_nil, List.map_nil, List.append_nil]
  | cons e entries ih =>
    have hnew : key e ∉ table.map Prod.fst := by
      intro hmem
      exact (List.nodup_append.1 h).2.2 _ hmem _ List.mem_cons_self rfl
    have hrest : ((table ++ [(key e, render e)]).map Prod.fst ++ entries.map key).Nodup := by
      simpa using h
    rw [List.foldl_cons, upsert_of_not_mem hnew, ih hrest, List.map_cons, List.append_assoc,
      List.singleton_append]

theorem nodup_names_foldl_upsert (entries : List γ) (key : γ → α) (render : γ → β)
    (h : (table.map Prod.fst).Nodup) :
    ((entries.foldl (fun table e => upsert (key e) (render e) table) table).map
      Prod.fst).Nodup := by
  induction entries generalizing table with
  | nil => exact h
  | cons e entries ih => exact ih (nodup_names_upsert _ _ h)

end Entries

/-! ### Lookups -/

section Lookups

variable {α β γ : Type} [BEq α] [LawfulBEq α] {name : α} {value : β} {table : List (α × β)}

theorem mem_of_lookup_eq_some (h : table.lookup name = some value) : (name, value) ∈ table := by
  obtain ⟨before, after, rfl, -⟩ := List.lookup_eq_some_iff.1 h
  exact List.mem_append_right _ (List.mem_cons_self ..)

theorem lookup_eq_none_of_not_mem (h : name ∉ table.map Prod.fst) : table.lookup name = none := by
  refine List.lookup_eq_none_iff.2 fun entry hentry => ?_
  rw [bne_iff_ne]
  rintro rfl
  exact h (List.mem_map_of_mem hentry)

theorem lookup_eq_none_iff_not_mem : table.lookup name = none ↔ name ∉ table.map Prod.fst := by
  constructor
  · intro h hmem
    obtain ⟨entry, hentry, rfl⟩ := List.mem_map.1 hmem
    have hne := List.lookup_eq_none_iff.1 h entry hentry
    rw [bne_self_eq_false] at hne
    cases hne
  · exact lookup_eq_none_of_not_mem

/-- Dropping the entries of some names **leaves the others** as they are. -/
theorem lookup_filter (keeps : α → Bool) (table : List (α × β)) (name : α) :
    (table.filter fun entry => keeps entry.1).lookup name =
      if keeps name then table.lookup name else none := by
  induction table with
  | nil => simp
  | cons entry table ih =>
    obtain ⟨n, v⟩ := entry
    rw [List.filter_cons, List.lookup_cons]
    by_cases heq : name = n
    · subst heq
      cases hkeeps : keeps name with
      | true => simp
      | false =>
        rw [if_neg Bool.false_ne_true, if_neg Bool.false_ne_true, ih, hkeeps,
          if_neg Bool.false_ne_true]
    · rw [beq_eq_false_iff_ne.2 heq, ← ih]
      split
      case isTrue => rw [List.lookup_cons, beq_eq_false_iff_ne.2 heq]
      case isFalse => rfl

/-- In a table into which entries are written **these are found first**, if each name stands once
among them. -/
theorem lookup_foldl_upsert [DecidableEq α] {entries : List (α × γ)} (render : α × γ → β)
    (h : (entries.map Prod.fst).Nodup) (name : α) :
    (entries.foldl (fun table e => upsert e.1 (render e) table) table).lookup name =
      ((entries.lookup name).map fun value => render (name, value)).or (table.lookup name) := by
  induction entries generalizing table with
  | nil => rfl
  | cons e entries ih =>
    obtain ⟨n, v⟩ := e
    obtain ⟨hn, hentries⟩ := List.nodup_cons.1 h
    rw [List.foldl_cons, ih hentries, List.lookup_cons]
    by_cases heq : name = n
    · -- the name stands nowhere else, so that nothing is written over its value
      subst heq
      rw [lookup_eq_none_of_not_mem hn, beq_self_eq_true, Option.map_none, Option.none_or,
        lookup_upsert]
      rfl
    · rw [beq_eq_false_iff_ne.2 heq, lookup_upsert_of_ne heq]

theorem lookup_eq_some_of_mem (h : (table.map Prod.fst).Nodup) (hmem : (name, value) ∈ table) :
    table.lookup name = some value := by
  obtain ⟨before, after, rfl⟩ := List.append_of_mem hmem
  refine List.lookup_eq_some_iff.2 ⟨before, after, rfl, fun entry hentry => ?_⟩
  -- the name stands nowhere before its entry
  rw [List.map_append, List.map_cons] at h
  rw [bne_iff_ne]
  rintro rfl
  exact (List.nodup_append.1 h).2.2 _ (List.mem_map_of_mem hentry) _ (List.mem_cons_self ..) rfl

/-- In tables with the same entries, each name once, a name has **the same value**, in whatever order
the entries stand. -/
theorem lookup_of_perm {table' : List (α × β)} (hperm : table.Perm table')
    (h : (table.map Prod.fst).Nodup) (name : α) : table.lookup name = table'.lookup name := by
  have h' : (table'.map Prod.fst).Nodup := (hperm.map Prod.fst).nodup_iff.1 h
  cases hfound : table'.lookup name with
  | some value =>
    exact lookup_eq_some_of_mem h (hperm.mem_iff.2 (mem_of_lookup_eq_some hfound))
  | none =>
    cases hfound' : table.lookup name with
    | none => rfl
    | some value =>
      have hmem := hperm.mem_iff.1 (mem_of_lookup_eq_some hfound')
      rw [lookup_eq_some_of_mem h' hmem] at hfound
      cases hfound

end Lookups

end MailMerge
