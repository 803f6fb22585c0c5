import Mathlib.Data.List.Dedup
import ReUperf.Lib.Table

/-!
# Recency

A cache of bounded size gives up the entry that was used least recently. Its meaning is a list of
keys and values in the order of their last use. A C++ program keeps a linked list of the keys and a
table with the node of each key, and unlinks a node through the table, so the table must never name
a node that is gone.
-/

/-! ## The meaning -/

/-- The entries of a cache, the least recently used one first. -/
abbrev Lru (κ α : Type) : Type := List (κ × α)

namespace Lru

variable {κ α : Type} [DecidableEq κ] {lru : Lru κ α} {key other : κ} {value : α}

/-- An entry is dropped. -/
def forget (key : κ) (lru : Lru κ α) : Lru κ α := lru.filter fun entry => decide (entry.1 ≠ key)

/-- An entry is stored, or used with the value it has. -/
def use (key : κ) (value : α) (lru : Lru κ α) : Lru κ α := lru.forget key ++ [(key, value)]

/-- The first entry is given up when there is no room for a new key. -/
def room (limit : Nat) (key : κ) (lru : Lru κ α) : Lru κ α :=
  if key ∉ lru.map Prod.fst ∧ limit ≤ lru.length then lru.tail else lru

/-- An entry is stored in a cache of bounded size. -/
def store (limit : Nat) (key : κ) (value : α) (lru : Lru κ α) : Lru κ α :=
  (lru.room limit key).use key value

@[simp] theorem mem_forget {entry : κ × α} :
    entry ∈ lru.forget key ↔ entry ∈ lru ∧ entry.1 ≠ key := by
  simp [forget]

@[simp] theorem mem_use {entry : κ × α} :
    entry ∈ lru.use key value ↔ (entry ∈ lru ∧ entry.1 ≠ key) ∨ entry = (key, value) := by
  simp [use]

/-- The value under a key. -/
def lookup (key : κ) (lru : Lru κ α) : Option α :=
  (lru.find? fun entry => decide (entry.1 = key)).map Prod.snd

/-- A value is looked up exactly when it is in the list. -/
theorem lookup_eq_some (distinct : (lru.map Prod.fst).Nodup) :
    lru.lookup key = some value ↔ (key, value) ∈ lru := by
  rw [lookup, Option.map_eq_some_iff]
  constructor
  · intro ⟨entry, found, same⟩
    have own : entry.1 = key := by simpa using List.find?_some found
    have member := List.mem_of_find?_eq_some found
    rwa [← own, ← same]
  · intro member
    have some : (lru.find? fun entry => decide (entry.1 = key)).isSome := by
      rw [List.find?_isSome]
      exact ⟨_, member, decide_eq_true rfl⟩
    obtain ⟨entry, found⟩ := Option.isSome_iff_exists.mp some
    have own : entry.1 = key := by simpa using List.find?_some found
    have listed := List.mem_of_find?_eq_some found
    have pair := List.inj_on_of_nodup_map distinct listed member own
    exact ⟨entry, found, congrArg Prod.snd pair⟩

/-- The keys that are left. -/
theorem keys_forget (distinct : (lru.map Prod.fst).Nodup) :
    (lru.forget key).map Prod.fst = (lru.map Prod.fst).erase key := by
  have kept : (lru.forget key).map Prod.fst = (lru.map Prod.fst).filter (· ≠ key) := by
    rw [forget, List.filter_map]
    rfl
  rw [kept, distinct.erase_eq_filter]
  simp only [ne_eq, bne, beq_eq_decide, decide_not]

/-- Dropping the first key leaves the rest. -/
theorem forget_head {head : κ × α} {rest : List (κ × α)}
    (distinct : (List.map Prod.fst (head :: rest)).Nodup) :
    Lru.forget head.1 (head :: rest) = rest := by
  rw [List.map_cons, List.nodup_cons] at distinct
  have others : ∀ entry ∈ rest, decide (entry.1 ≠ head.1) = true := by
    intro entry member
    rw [decide_eq_true_eq]
    intro same
    exact distinct.1 (List.mem_map.mpr ⟨entry, member, same⟩)
  rw [forget, List.filter_cons_of_neg (by simp), List.filter_eq_self.mpr others]

/-- The keys after a use. -/
theorem keys_use (distinct : (lru.map Prod.fst).Nodup) :
    (lru.use key value).map Prod.fst = (lru.map Prod.fst).erase key ++ [key] := by
  rw [use, List.map_append, keys_forget distinct]
  rfl

/-- A use keeps the keys distinct. -/
theorem nodup_use (distinct : (lru.map Prod.fst).Nodup) :
    ((lru.use key value).map Prod.fst).Nodup := by
  have gone : key ∉ (lru.map Prod.fst).erase key := distinct.not_mem_erase
  rw [keys_use distinct, List.nodup_append]
  refine ⟨distinct.erase key, List.nodup_singleton key, ?_⟩
  intro left kept right used same
  rw [List.mem_singleton] at used
  rw [same, used] at kept
  exact gone kept

omit [DecidableEq κ] in
/-- So does giving up the first one. -/
theorem nodup_tail (distinct : (lru.map Prod.fst).Nodup) : (lru.tail.map Prod.fst).Nodup := by
  rw [List.map_tail]
  exact distinct.tail

/-- Storing keeps the keys distinct. -/
theorem nodup_store {limit : Nat} (distinct : (lru.map Prod.fst).Nodup) :
    ((lru.store limit key value).map Prod.fst).Nodup := by
  rw [store, room]
  split
  · exact nodup_use (nodup_tail distinct)
  · exact nodup_use distinct

/-- A use adds an entry at most. -/
theorem length_use (distinct : (lru.map Prod.fst).Nodup) :
    (lru.use key value).length =
      if key ∈ lru.map Prod.fst then lru.length else lru.length + 1 := by
  have keys : (lru.use key value).map Prod.fst = (lru.map Prod.fst).erase key ++ [key] :=
    keys_use distinct
  have lengths := congrArg List.length keys
  simp only [List.length_map, List.length_append, List.length_singleton] at lengths
  split
  · next stored =>
    have positive := List.length_pos_of_mem stored
    rw [List.length_erase_of_mem stored, List.length_map] at lengths
    rw [List.length_map] at positive
    omega
  · next absent =>
    rw [List.erase_of_not_mem absent, List.length_map] at lengths
    exact lengths

/-- The size stays bounded. -/
theorem length_store {limit : Nat} (positive : 0 < limit)
    (distinct : (lru.map Prod.fst).Nodup) (bounded : lru.length ≤ limit) :
    (lru.store limit key value).length ≤ limit := by
  rw [store, room]
  split
  · next full =>
    have absent : key ∉ lru.tail.map Prod.fst := fun stored => by
      rw [List.map_tail] at stored
      exact full.1 (List.mem_of_mem_tail stored)
    rw [length_use (nodup_tail distinct), if_neg absent, List.length_tail]
    omega
  · next room =>
    rw [length_use distinct]
    split
    · exact bounded
    · next absent =>
      have short : ¬ limit ≤ lru.length := fun full => room ⟨absent, full⟩
      omega

/-! ### Recency -/

/-- One more use of a key makes it the last one. -/
theorem dedup_append_singleton (uses : List κ) (key : κ) :
    (uses ++ [key]).dedup = uses.dedup.erase key ++ [key] := by
  induction uses with
  | nil => rfl
  | cons first uses ih =>
    rw [List.cons_append]
    by_cases same : first = key
    · have again : first ∈ uses ++ [key] := by simp [same]
      rw [List.dedup_cons_of_mem again, ih]
      by_cases used : first ∈ uses
      · rw [List.dedup_cons_of_mem used]
      · have absent : key ∉ uses.dedup := fun member => by
          rw [List.mem_dedup, ← same] at member
          exact used member
        rw [List.dedup_cons_of_notMem used, same, List.erase_cons_head,
          List.erase_of_not_mem absent]
    · by_cases used : first ∈ uses
      · have again : first ∈ uses ++ [key] := List.mem_append_left _ used
        rw [List.dedup_cons_of_mem again, List.dedup_cons_of_mem used, ih]
      · have once : first ∉ uses ++ [key] := by simp [used, same]
        rw [List.dedup_cons_of_notMem once, List.dedup_cons_of_notMem used, ih,
          List.erase_cons_tail (by simpa using same), List.cons_append]

/-- The keys come in the order of their last uses. -/
def Recent (uses : List κ) (lru : Lru κ α) : Prop := (lru.map Prod.fst).Sublist uses.dedup

/-- The keys are those used most recently, as many as there is room for. -/
def MostRecent (limit : Nat) (uses : List κ) (lru : Lru κ α) : Prop :=
  ∃ older, uses.dedup = older ++ lru.map Prod.fst ∧ (older = [] ∨ lru.length = limit)

variable {uses : List κ} {limit : Nat}

/-- Most recently used keys come in the order of their last uses. -/
theorem MostRecent.recent (most : MostRecent limit uses lru) : Recent uses lru := by
  obtain ⟨older, split, -⟩ := most
  rw [Recent, split]
  exact List.sublist_append_right _ _

/-- Dropping a key keeps the order. -/
theorem Recent.forget (recent : Recent uses lru) : Recent uses (lru.forget key) := by
  have fewer : ((lru.forget key).map Prod.fst).Sublist (lru.map Prod.fst) :=
    List.filter_sublist.map Prod.fst
  exact fewer.trans recent

/-- A use keeps the order. -/
theorem Recent.use (recent : Recent uses lru) (distinct : (lru.map Prod.fst).Nodup) :
    Recent (uses ++ [key]) (lru.use key value) := by
  rw [Recent, dedup_append_singleton, keys_use distinct]
  exact (recent.erase key).append (List.Sublist.refl _)

/-- Storing keeps the order. -/
theorem Recent.store (recent : Recent uses lru) (distinct : (lru.map Prod.fst).Nodup) :
    Recent (uses ++ [key]) (lru.store limit key value) := by
  rw [Lru.store, Lru.room]
  split
  · refine Recent.use ?_ (nodup_tail distinct)
    rw [Recent, List.map_tail]
    exact (List.tail_sublist _).trans recent
  · exact recent.use distinct

/-- A use of a key that is there keeps what is told of the most recent keys. -/
theorem MostRecent.use (most : MostRecent limit uses lru) (distinct : (lru.map Prod.fst).Nodup)
    (stored : key ∈ lru.map Prod.fst) : MostRecent limit (uses ++ [key]) (lru.use key value) := by
  obtain ⟨older, split, full⟩ := most
  have absent : key ∉ older := by
    have all := List.nodup_dedup uses
    rw [split] at all
    exact fun member => List.disjoint_of_nodup_append all member stored
  refine ⟨older, ?_, ?_⟩
  · rw [dedup_append_singleton, split, keys_use distinct, List.erase_append_right _ absent,
      List.append_assoc]
  · rw [length_use distinct, if_pos stored]
    exact full

/-- Storing keeps it. -/
theorem MostRecent.store (most : MostRecent limit uses lru)
    (distinct : (lru.map Prod.fst).Nodup) (positive : 0 < limit) (bounded : lru.length ≤ limit) :
    MostRecent limit (uses ++ [key]) (lru.store limit key value) := by
  by_cases stored : key ∈ lru.map Prod.fst
  · rw [Lru.store, Lru.room, if_neg (fun full => full.1 stored)]
    exact most.use distinct stored
  obtain ⟨older, split, full⟩ := most
  by_cases room : limit ≤ lru.length
  · rw [Lru.store, Lru.room, if_pos ⟨stored, room⟩]
    have absent : key ∉ lru.tail.map Prod.fst := fun member => by
      rw [List.map_tail] at member
      exact stored (List.mem_of_mem_tail member)
    have erased : (older ++ lru.map Prod.fst).erase key = older.erase key ++ lru.map Prod.fst := by
      rw [List.erase_append]
      split
      · rfl
      · next unused =>
        rw [List.erase_of_not_mem unused, List.erase_of_not_mem stored]
    cases lru with
    | nil =>
      rw [List.length_nil] at room
      omega
    | cons first rest =>
      refine ⟨older.erase key ++ [first.1], ?_, .inr ?_⟩
      · rw [dedup_append_singleton, split, keys_use (nodup_tail distinct),
          List.erase_of_not_mem absent, erased, List.append_assoc, List.append_assoc]
        rfl
      · rw [length_use (nodup_tail distinct), if_neg absent, List.length_tail]
        simp only [List.length_cons] at room bounded ⊢
        omega
  · have none : older = [] := full.resolve_right (by omega)
    rw [Lru.store, Lru.room, if_neg (fun full => room full.2)]
    refine ⟨[], ?_, .inl rfl⟩
    rw [dedup_append_singleton, split, keys_use distinct, none, List.nil_append, List.nil_append]

end Lru

/-! ## Linked lists with a table -/

/-- A linked list whose nodes are found through a table. -/
structure IndexedList (κ : Type) where
  /-- The nodes, each with its position in memory. -/
  nodes : List (Nat × κ) := []
  /-- The node of each key. -/
  index : Table κ Nat := ∅
  /-- The nodes there have been. -/
  made : Nat := 0
  /-- Whether a node was unlinked that was gone. -/
  dangled : Bool := false

namespace IndexedList

variable {κ : Type} [DecidableEq κ]

/-- The keys in their order. -/
def keys (list : IndexedList κ) : List κ := list.nodes.map Prod.snd

/-- Unlink a node. -/
def unlink (node : Nat) (list : IndexedList κ) : IndexedList κ :=
  { list with
    nodes := list.nodes.filter fun entry => decide (entry.1 ≠ node)
    dangled := list.dangled || !list.nodes.any fun entry => decide (entry.1 = node) }

/-- Unlink the node of a key, if it has one. -/
def unlinkKey (key : κ) (list : IndexedList κ) : IndexedList κ :=
  match list.index.lookup key with
  | some node => list.unlink node
  | none => list

/-- Make a node at the end and put it into the table. -/
def push (key : κ) (list : IndexedList κ) : IndexedList κ :=
  { list with
    nodes := list.nodes ++ [(list.made, key)]
    index := list.index.insert key list.made
    made := list.made + 1 }

/-- Move a key to the end. -/
def touch (key : κ) (list : IndexedList κ) : IndexedList κ := (list.unlinkKey key).push key

/-- Drop a key. -/
def forget (key : κ) (list : IndexedList κ) : IndexedList κ :=
  { list.unlinkKey key with index := list.index.erase key }

/-- The table and the list agree. -/
structure Linked (list : IndexedList κ) : Prop where
  /-- Every node is one there has been. -/
  made : ∀ entry ∈ list.nodes, entry.1 < list.made
  /-- No two nodes are the same. -/
  distinct : (list.nodes.map Prod.fst).Nodup
  /-- The table has the node of each key. -/
  found : ∀ node key, list.index.lookup key = some node ↔ (node, key) ∈ list.nodes
  /-- No node was unlinked that was gone. -/
  sound : list.dangled = false

variable {list : IndexedList κ} {key : κ}

/-- A list without nodes agrees with an empty table. -/
theorem linked_empty : Linked ({} : IndexedList κ) where
  made := by simp
  distinct := List.nodup_nil
  found node key := by simp
  sound := rfl

/-- A key has one node. -/
theorem Linked.nodup_keys (linked : list.Linked) : list.keys.Nodup := by
  rw [keys, List.nodup_map_iff_inj_on (List.Nodup.of_map _ linked.distinct)]
  intro left first right second same
  have one := (linked.found left.1 left.2).mpr first
  have two := (linked.found right.1 right.2).mpr second
  rw [same, two] at one
  exact Prod.ext (Option.some.inj one).symm same

/-- Unlinking the node of a key leaves the nodes of the other keys. -/
theorem Linked.nodes_unlinkKey (linked : list.Linked) :
    (list.unlinkKey key).nodes = list.nodes.filter (fun entry => decide (entry.2 ≠ key)) ∧
      (list.unlinkKey key).dangled = false := by
  rw [unlinkKey]
  cases stored : list.index.lookup key with
  | none =>
    refine ⟨(List.filter_eq_self.mpr ?_).symm, linked.sound⟩
    intro entry member
    rw [decide_eq_true_eq]
    rintro rfl
    rw [(linked.found entry.1 entry.2).mpr member] at stored
    cases stored
  | some node =>
    have member := (linked.found node key).mp stored
    refine ⟨List.filter_congr fun entry listed => ?_, ?_⟩
    · rw [decide_eq_decide, not_iff_not]
      constructor
      · intro same
        have pair := List.inj_on_of_nodup_map linked.distinct listed member same
        rw [pair]
      · intro same
        have other := (linked.found entry.1 entry.2).mpr listed
        rw [same, stored] at other
        exact (Option.some.inj other).symm
    · have there : (list.nodes.any fun entry => decide (entry.1 = node)) = true :=
        List.any_eq_true.mpr ⟨_, member, decide_eq_true rfl⟩
      simp only [unlink, linked.sound, there, Bool.not_true, Bool.or_false]

/-- Unlinking touches neither the table nor what is told of memory. -/
@[simp] theorem index_unlinkKey : (list.unlinkKey key).index = list.index := by
  rw [unlinkKey]
  cases list.index.lookup key <;> rfl

@[simp] theorem made_unlinkKey : (list.unlinkKey key).made = list.made := by
  rw [unlinkKey]
  cases list.index.lookup key <;> rfl

/-- A node that is left was there and has another key. -/
theorem Linked.mem_unlinkKey (linked : list.Linked) {entry : Nat × κ} :
    entry ∈ (list.unlinkKey key).nodes ↔ entry ∈ list.nodes ∧ entry.2 ≠ key := by
  rw [linked.nodes_unlinkKey.1, List.mem_filter, decide_eq_true_eq]

/-- The keys that are left. -/
theorem Linked.keys_unlinkKey (linked : list.Linked) :
    (list.unlinkKey key).keys = list.keys.erase key := by
  have kept : (list.unlinkKey key).keys = list.keys.filter (· ≠ key) := by
    rw [keys, keys, linked.nodes_unlinkKey.1, List.filter_map]
    rfl
  rw [kept, linked.nodup_keys.erase_eq_filter]
  simp only [ne_eq, bne, beq_eq_decide, decide_not]

/-- The nodes that are left are distinct. -/
theorem Linked.nodup_unlinkKey (linked : list.Linked) :
    ((list.unlinkKey key).nodes.map Prod.fst).Nodup := by
  rw [linked.nodes_unlinkKey.1]
  exact linked.distinct.sublist (List.filter_sublist.map Prod.fst)

/-- Dropping a key keeps the table and the list in agreement. -/
theorem Linked.forget (linked : list.Linked) : (list.forget key).Linked where
  made entry member := by
    have left := (linked.mem_unlinkKey.mp member).1
    exact lt_of_lt_of_eq (linked.made entry left) made_unlinkKey.symm
  distinct := linked.nodup_unlinkKey
  found node other := by
    have left : (node, other) ∈ (list.forget key).nodes ↔ (node, other) ∈ list.nodes ∧ other ≠ key :=
      linked.mem_unlinkKey
    rw [left, ← linked.found node other, IndexedList.forget]
    by_cases same : other = key
    · rw [same]
      simp
    · simp [same]
  sound := linked.nodes_unlinkKey.2

/-- The keys after dropping one. -/
theorem Linked.keys_forget (linked : list.Linked) :
    (list.forget key).keys = list.keys.erase key := linked.keys_unlinkKey

/-- Moving a key keeps the table and the list in agreement. -/
theorem Linked.touch (linked : list.Linked) : (list.touch key).Linked where
  made entry member := by
    have parts : entry ∈ (list.unlinkKey key).nodes ∨ entry = ((list.unlinkKey key).made, key) := by
      simpa [IndexedList.touch, push] using member
    have more : (list.touch key).made = list.made + 1 := by
      simp [IndexedList.touch, push]
    rw [more]
    rcases parts with left | new
    · have before := linked.made entry (linked.mem_unlinkKey.mp left).1
      omega
    · rw [new, made_unlinkKey]
      exact Nat.lt_succ_self _
  distinct := by
    have nodes : (list.touch key).nodes.map Prod.fst =
        (list.unlinkKey key).nodes.map Prod.fst ++ [list.made] := by
      simp [IndexedList.touch, push]
    rw [nodes, List.nodup_append]
    refine ⟨linked.nodup_unlinkKey, List.nodup_singleton _, ?_⟩
    intro left kept right new same
    rw [List.mem_singleton] at new
    obtain ⟨entry, member, rfl⟩ := List.mem_map.mp kept
    have before := linked.made entry (linked.mem_unlinkKey.mp member).1
    omega
  found node other := by
    have parts : (node, other) ∈ (list.touch key).nodes ↔
        ((node, other) ∈ list.nodes ∧ other ≠ key) ∨ (node = list.made ∧ other = key) := by
      rw [← linked.mem_unlinkKey]
      simp [IndexedList.touch, push]
    rw [parts, IndexedList.touch, push]
    dsimp only
    rw [index_unlinkKey, made_unlinkKey]
    by_cases same : other = key
    · rw [same]
      simp [eq_comm]
    · rw [AList.lookup_insert_ne same, linked.found node other]
      simp [same]
  sound := linked.nodes_unlinkKey.2

/-- The keys after moving one. -/
theorem Linked.keys_touch (linked : list.Linked) :
    (list.touch key).keys = list.keys.erase key ++ [key] := by
  have keys : (list.touch key).keys = (list.unlinkKey key).keys ++ [key] := by
    simp [IndexedList.touch, push, IndexedList.keys]
  rw [keys, linked.keys_unlinkKey]

end IndexedList
