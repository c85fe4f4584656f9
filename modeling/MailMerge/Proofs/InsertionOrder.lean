import MailMerge.Proofs.ValuePrecedence

/-!
# Records keep the order of insertion

A record is a table that is filled entry by entry: first with the members of the object that it is read
from, where a name may occur more than once, and then with the fields that are set later. It is read in
two passes. The first makes a table of JSON values of the members, the second a table of fields of that
one, and since the first table has each name once, nothing moves in the second.

`IsFilledWith` says what a table holds when entries are given to it, without any table: the names stand
in the order in which they were first given, and each has the value that it was given last.

* `AppearInTurn` — some names are those of a list, in the order of their first places;
* `IsFilledWith.upsert` — what one entry does to a table, and `IsFilledWith.foldl_upsert`, what a list
  of them does;
* `record_of_members` — the record of the members of an object is filled with these;
* `records_keep_order` — records and shared contexts are maps that keep the order of insertion.
-/

namespace MailMerge

section Filling

variable {α β γ : Type} [BEq α] {name : α} {names given : List α}

/-! ### Names in the order of their first places -/

/-- Whether names are **those of a list, in the order in which they first appear** there. -/
structure AppearInTurn (names given : List α) : Prop where
  mem_iff : ∀ name, name ∈ names ↔ name ∈ given
  inTurn : names.Pairwise fun a b => given.idxOf a < given.idxOf b

namespace AppearInTurn

theorem nil : AppearInTurn ([] : List α) [] where
  mem_iff _ := Iff.rfl
  inTurn := List.Pairwise.nil

/-- Of names that appear in turn, **each stands once**. -/
theorem nodup (h : AppearInTurn names given) : names.Nodup := by
  apply h.inTurn.imp
  rintro a b hlt rfl
  exact Nat.lt_irrefl _ hlt

variable [LawfulBEq α]

/-- A name that is there already **changes nothing**. -/
theorem append_of_mem (h : AppearInTurn names given) (hname : name ∈ given) :
    AppearInTurn names (given ++ [name]) where
  mem_iff other := by
    rw [h.mem_iff, List.mem_append, List.mem_singleton]
    constructor
    · exact Or.inl
    · rintro (hother | rfl)
      · exact hother
      · exact hname
  inTurn := by
    -- the first places are among the old names
    apply h.inTurn.imp_of_mem
    intro a b ha hb hlt
    rwa [List.idxOf_append_of_mem ((h.mem_iff a).1 ha), List.idxOf_append_of_mem ((h.mem_iff b).1 hb)]

/-- A new name **appears behind all others**. -/
theorem append_of_not_mem (h : AppearInTurn names given) (hname : name ∉ given) :
    AppearInTurn (names ++ [name]) (given ++ [name]) where
  mem_iff other := by rw [List.mem_append, List.mem_append, h.mem_iff]
  inTurn := by
    have hold : ∀ a ∈ names, (given ++ [name]).idxOf a < given.length := by
      intro a ha
      have hmem := (h.mem_iff a).1 ha
      rw [List.idxOf_append_of_mem hmem]
      exact List.idxOf_lt_length_of_mem hmem
    refine List.pairwise_append.2 ⟨?_, List.pairwise_singleton _ _, ?_⟩
    · apply h.inTurn.imp_of_mem
      intro a b ha hb hlt
      rwa [List.idxOf_append_of_mem ((h.mem_iff a).1 ha),
        List.idxOf_append_of_mem ((h.mem_iff b).1 hb)]
    · intro a ha b hb
      obtain rfl := List.mem_singleton.1 hb
      rw [List.idxOf_append_of_notMem hname]
      exact Nat.lt_of_lt_of_le (hold a ha) (Nat.le_add_right _ _)

end AppearInTurn

/-! ### Tables that are filled -/

variable [LawfulBEq α] {start given table : List (α × β)} {value : β}

/-- What a table holds **when entries are given to it** one after another. Its names stay where they
are, and behind them stand the new ones in the order in which they were first given. Each name has the
value that it was given last, and the one it had at the start if it was given none. -/
structure IsFilledWith (start given table : List (α × β)) : Prop where
  names : ∃ added, table.map Prod.fst = start.map Prod.fst ++ added ∧
    AppearInTurn added ((given.map Prod.fst).filter fun name => name ∉ start.map Prod.fst)
  value : ∀ name, table.lookup name = (given.reverse.lookup name).or (start.lookup name)

namespace IsFilledWith

theorem refl (start : List (α × β)) : IsFilledWith start [] start where
  names := ⟨[], (List.append_nil _).symm, .nil⟩
  value _ := rfl

/-- **One more entry** is given: a name that is there keeps its place, and a new one goes to the end. -/
theorem upsert [DecidableEq α] (h : IsFilledWith start given table) (name : α) (value : β) :
    IsFilledWith start (given ++ [(name, value)]) (upsert name value table) where
  names := by
    obtain ⟨added, hnames, hadded⟩ := h.names
    rw [names_upsert, hnames, List.map_append, List.filter_append, List.map_singleton]
    by_cases hstart : name ∈ start.map Prod.fst
    · -- a name of the start is not among those that were added
      have hsingle : [name].filter (fun name => name ∉ start.map Prod.fst) = [] :=
        List.filter_cons_of_neg (by simpa using hstart)
      rw [if_pos (List.mem_append_left added hstart), hsingle, List.append_nil]
      exact ⟨added, rfl, hadded⟩
    · have hsingle : [name].filter (fun name => name ∉ start.map Prod.fst) = [name] :=
        List.filter_cons_of_pos (by simpa using hstart)
      rw [hsingle]
      by_cases hmem : name ∈ added
      · rw [if_pos (List.mem_append_right _ hmem)]
        exact ⟨added, rfl, hadded.append_of_mem ((hadded.mem_iff name).1 hmem)⟩
      · rw [if_neg fun h => (List.mem_append.1 h).elim hstart hmem, List.append_assoc]
        exact ⟨added ++ [name], rfl, hadded.append_of_not_mem fun h => hmem ((hadded.mem_iff name).2 h)⟩
  value other := by
    rw [List.reverse_append, List.reverse_singleton, List.singleton_append, List.lookup_cons]
    by_cases heq : other = name
    · subst heq
      rw [lookup_upsert, beq_self_eq_true]
      rfl
    · rw [lookup_upsert_of_ne heq, beq_eq_false_iff_ne.2 heq]
      exact h.value other

/-- A **list of entries** is given, one after another. -/
theorem foldl_upsert [DecidableEq α] (h : IsFilledWith start given table) (entries : List γ) (key : γ → α)
    (render : γ → β) :
    IsFilledWith start (given ++ entries.map fun e => (key e, render e))
      (entries.foldl (fun table e => MailMerge.upsert (key e) (render e) table) table) := by
  induction entries generalizing given table with
  | nil =>
    rw [List.map_nil, List.append_nil]
    exact h
  | cons e entries ih =>
    rw [List.map_cons, List.append_cons]
    exact ih (h.upsert (key e) (render e))

/-- The names of a table that was empty **appear in turn**. -/
theorem appearInTurn (h : IsFilledWith [] given table) :
    AppearInTurn (table.map Prod.fst) (given.map Prod.fst) := by
  obtain ⟨added, hnames, hadded⟩ := h.names
  have hall : (given.map Prod.fst).filter (fun name => name ∉ ([] : List (α × β)).map Prod.fst) =
      given.map Prod.fst := by
    apply List.filter_eq_self.2
    intro name _
    exact decide_eq_true List.not_mem_nil
  rw [hall] at hadded
  rw [hnames]
  exact hadded

/-- So does a table of which **the values are changed** as those that were given. -/
theorem map (h : IsFilledWith [] given table) (f : β → γ) :
    IsFilledWith [] (given.map fun e => (e.1, f e.2)) (table.map fun e => (e.1, f e.2)) where
  names := by
    have hfst (entries : List (α × β)) :
        (entries.map fun e => (e.1, f e.2)).map Prod.fst = entries.map Prod.fst := List.map_map
    rw [hfst, hfst]
    exact h.names
  value name := by
    have hlookup (entries : List (α × β)) :
        (entries.map fun e => (e.1, f e.2)).lookup name = (entries.lookup name).map f := by
      induction entries with
      | nil => rfl
      | cons e entries ih =>
        rw [List.map_cons, List.lookup_cons, List.lookup_cons, ih]
        cases name == e.1 <;> rfl
    rw [← List.map_reverse, hlookup, hlookup, h.value, List.lookup_nil, List.lookup_nil, Option.or_none,
      Option.or_none]

end IsFilledWith

end Filling

/-! ### The specification -/

/-- Whether fields and the way in which they are looked up are a **map that keeps the order** in which
its entries were given: the names are different from each other, each has the value that it was given
last, if it was given any, and they stand in the order in which they first appeared. -/
structure IsOrderedMap (fields : List (Text × FieldValue)) (get? : Text → Option FieldValue)
    (given : List (Text × FieldValue)) : Prop where
  distinct : (fields.map Prod.fst).Nodup
  lastValue : ∀ name, get? name = given.reverse.lookup name
  inTurn : AppearInTurn (fields.map Prod.fst) (given.map Prod.fst)

/-- The field that a member of an object gives. -/
def fieldOfMember (member : Text × Json) : Text × FieldValue := (member.1, .ofJson member.2)

/-- What may be done to a shared context: a value is set, or names are reserved. -/
inductive SharedStep where
  | set (name : Text) (value : FieldValue)
  | reserve (names : List Text)

/-- The shared context after a step. -/
def SharedContext.apply (shared : SharedContext) : SharedStep → SharedContext
  | .set name value => shared.insert name value
  | .reserve names => shared.reserve names

/-- The entry that a step gives, if it gives one. -/
def SharedStep.entry? : SharedStep → Option (Text × FieldValue)
  | .set name value => some (name, value)
  | .reserve _ => none

/-! ### Records -/

variable {record : Record} {given : List (Text × FieldValue)}

theorem IsFilledWith.isOrderedMap {fields : List (Text × FieldValue)} (h : IsFilledWith [] given fields) :
    IsOrderedMap fields (fun name => fields.lookup name) given where
  distinct := h.appearInTurn.nodup
  lastValue name := by
    have hvalue := h.value name
    rwa [List.lookup_nil, Option.or_none] at hvalue
  inTurn := h.appearInTurn

/-- Setting fields **gives them to the table** of a record. -/
theorem Record.fields_foldl_insert {γ : Type} (entries : List γ) (key : γ → Text)
    (value : γ → FieldValue) (record : Record) :
    (entries.foldl (fun record e => record.insert (key e) (value e)) record).fields =
      entries.foldl (fun table e => upsert (key e) (value e) table) record.fields := by
  induction entries generalizing record with
  | nil => rfl
  | cons e entries ih => exact ih (record.insert (key e) (value e))

/-- The record of the **members of an object** is filled with them, repeated names included. -/
theorem record_of_members (fields : List (Text × Json)) :
    ∃ record, Record.ofJson? (Json.ofFields fields) = some record ∧
      IsFilledWith [] (fields.map fieldOfMember) record.fields := by
  let table := fields.foldl (fun table f => upsert f.1 f.2 table) ([] : List (Text × Json))
  have htable : IsFilledWith [] fields table := by
    have hfold := (IsFilledWith.refl []).foldl_upsert fields Prod.fst Prod.snd
    rwa [List.nil_append, List.map_id'] at hfold
  have hfields : (Record.ofFields table).fields = table.map fieldOfMember := by
    -- the table has each name once, so that its fields are set one behind the other
    have hnodup : (([] : List (Text × FieldValue)).map Prod.fst ++ table.map Prod.fst).Nodup :=
      htable.appearInTurn.nodup
    calc (Record.ofFields table).fields
        = table.foldl (fun fields f => upsert f.1 (.ofJson f.2) fields) [] :=
          Record.fields_foldl_insert table Prod.fst (fun f => .ofJson f.2) .empty
      _ = [] ++ table.map fieldOfMember := foldl_upsert_of_nodup hnodup
      _ = table.map fieldOfMember := List.nil_append _
  refine ⟨Record.ofFields table, rfl, ?_⟩
  rw [hfields]
  exact htable.map FieldValue.ofJson

/-! ### Shared contexts -/

/-- Steps on a shared context **give their entries** to the table of its values. -/
theorem SharedContext.fields_foldl_apply (steps : List SharedStep) (shared : SharedContext) :
    (steps.foldl SharedContext.apply shared).values.fields =
      (steps.filterMap SharedStep.entry?).foldl (fun table e => upsert e.1 e.2 table)
        shared.values.fields := by
  induction steps generalizing shared with
  | nil => rfl
  | cons step steps ih =>
    rw [List.foldl_cons, ih]
    cases step with
    | set name value => rfl
    | reserve names => rfl

/-! ### The order of insertion -/

/-- **Records keep the order of insertion.** An object whose members have values makes a record, read
on its own or inside of an array. Whatever fields are set later, the record is an ordered map of the
members of the object, repeated ones included, and of the fields that were set. So is a shared context
that begins with the record, whatever names it reserves. -/
theorem records_keep_order {depth : Nat} {members : List (Text × JsonNode)}
    {fields : List (Text × Json)} (h : JsonNode.fields? depth members = some fields) :
    ∃ record : Record,
      ((JsonNode.object members).value? (depth + 1)).bind Record.ofJson? = some record ∧
      (∀ t, depth + 1 = JsonNode.maxDepth → JsonNode.ofText? t = some (.object members) →
        Record.ofText? t = some record) ∧
      (∀ steps : List (Text × FieldValue),
        let later := steps.foldl (fun record step => record.insert step.1 step.2) record
        IsOrderedMap later.fields later.get? (fields.map fieldOfMember ++ steps)) ∧
      ∀ (reserved : List Text) (steps : List SharedStep),
        let later := steps.foldl SharedContext.apply ⟨record, reserved⟩
        IsOrderedMap later.values.fields later.get?
          (fields.map fieldOfMember ++ steps.filterMap SharedStep.entry?) := by
  obtain ⟨record, hrecord, hfilled⟩ := record_of_members fields
  have hvalue : (JsonNode.object members).value? (depth + 1) = some (Json.ofFields fields) := by
    rw [JsonNode.value?, h]
    rfl
  -- a list of entries that is given later goes on filling the record
  have hlater (entries : List (Text × FieldValue)) :
      IsFilledWith [] (fields.map fieldOfMember ++ entries)
        (entries.foldl (fun table e => upsert e.1 e.2 table) record.fields) := by
    have hfold := hfilled.foldl_upsert entries Prod.fst Prod.snd
    rwa [List.map_id'] at hfold
  refine ⟨record, ?_, ?_, ?_, ?_⟩
  · rw [hvalue]
    exact hrecord
  · intro t hdepth ht
    have hjson : Json.ofText? t = some (Json.ofFields fields) := by
      rw [Json.ofText?, ht, ← hdepth]
      exact hvalue
    rw [Record.ofText?, hjson]
    exact hrecord
  · intro steps later
    have hfields : later.fields = steps.foldl (fun table e => upsert e.1 e.2 table) record.fields :=
      Record.fields_foldl_insert steps Prod.fst Prod.snd record
    have hmap := (hlater steps).isOrderedMap
    rw [← hfields] at hmap
    exact hmap
  · intro reserved steps later
    have hmap := (hlater (steps.filterMap SharedStep.entry?)).isOrderedMap
    rw [← SharedContext.fields_foldl_apply steps ⟨record, reserved⟩] at hmap
    exact hmap

/-- An object with a repeated name, to which two more fields are given, one of them again under a name
that is there: the names keep their places. -/
theorem records_keep_order_of_repeated :
    let members : List (Text × JsonNode) :=
      [("b", .string "1"), ("a", .string "2"), ("b", .string "3")]
    let steps : List (Text × FieldValue) := [("a", .text "4"), ("c", .text "5")]
    let fields : List (Text × Json) := [("b", .string "1"), ("a", .string "2"), ("b", .string "3")]
    let record : Record := ⟨[("b", .text "3"), ("a", .text "2")]⟩
    let later : List (Text × FieldValue) := [("b", .text "3"), ("a", .text "4"), ("c", .text "5")]
    JsonNode.fields? 0 members = some fields ∧
      ((JsonNode.object members).value? 1).bind Record.ofJson? = some record ∧
      (steps.foldl (fun record step => record.insert step.1 step.2) record) = ⟨later⟩ ∧
      IsOrderedMap later (steps.foldl (fun record step => record.insert step.1 step.2) record).get?
        (fields.map fieldOfMember ++ steps) := by
  intro members steps fields record later
  have hfields : JsonNode.fields? 0 members = some fields := rfl
  obtain ⟨record', hrecord, -, hmap, -⟩ := records_keep_order hfields
  obtain rfl : record = record' := Option.some.inj hrecord
  exact ⟨hfields, hrecord, rfl, hmap steps⟩

end MailMerge
