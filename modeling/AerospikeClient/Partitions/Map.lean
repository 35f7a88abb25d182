import Mathlib
import AerospikeClient.Partitions.Validate

/-!
# Partition maps over a heap of `Partitions`

A `partitionMap` holds `*Partitions` pointers, and `cleanup` writes through them: it drops the
rows and the regimes of every `Partitions` its map holds before it deletes the keys. Whether that
reaches a value another map still reads depends on which maps share objects. The model keeps the
objects in a heap (`PHeap`), a map as its namespaces with the addresses of their objects
(`PMap`), and a client as a sequence of calls on maps and on the pointers it holds (`PCmd`,
`run`). `clone` copies each object it visits into a new one, so the clone of a map shares no
object: whatever calls follow, as long as none names the clone, its contents stay what the
original held when it was cloned (`clone_snapshot`).

Every row array is made by `make` inside `newPartitions`, `setReplicaCount` or `clone`, so no
two objects share one; the model keeps the rows inside their object, and `cleanup` clears the
object rather than writing `nil` into its row arrays. `Replicas` is exported, so a client could
store one row slice in two objects; such a client, whose writes through one object would show in
the other, is outside the model.
-/

namespace AerospikeClient

/-- The `Partitions` objects that `*Partitions` pointers point to, by address. -/
abbrev PHeap := List Partitions

/-- The object at address `a`. -/
def PHeap.read (h : PHeap) (a : Nat) : Partitions := h.getD a ⟨[], false, []⟩

theorem PHeap.read_append_of_lt {h : PHeap} {a : Nat} (ha : a < h.length) (l : List Partitions) :
  PHeap.read (h ++ l) a = h.read a
  := by
  simp only [PHeap.read, List.getD_eq_getElem?_getD, List.getElem?_append_left ha]

theorem PHeap.read_modify_of_ne {h : PHeap} {a b : Nat} (hab : a ≠ b)
    (f : Partitions → Partitions) :
  PHeap.read (h.modify f a) b = h.read b
  := by
  simp [PHeap.read, List.getElem?_modify, hab]

/-- A `partitionMap`: its `sync.Map` from namespace names to the addresses of their
`Partitions`, in the order `Range` visits them, each namespace once. -/
structure PMap where
  m : List (String × Nat)
  nodup : (m.map Prod.fst).Nodup

namespace PMap

/-- `newPartitionMap()`. -/
def empty : PMap := ⟨[], List.nodup_nil⟩

/-- `get(key)`: the pointer stored under `key`; `none` where `ok` is `false`. -/
def get (pm : PMap) (key : String) : Option Nat := pm.m.lookup key

theorem map_fst_replace (l : List (String × Nat)) (key : String) (a : Nat) :
  (l.map fun e => if e.1 = key then (key, a) else e).map Prod.fst = l.map Prod.fst
  := by
  rw [List.map_map]
  exact List.map_congr_left fun e _ => by by_cases h : e.1 = key <;> simp [h]

/-- `set(key, value)`: `Store` replaces the pointer under a stored key and adds a new key. -/
def set (pm : PMap) (key : String) (a : Nat) : PMap :=
  if h : key ∈ pm.m.map Prod.fst then
    ⟨pm.m.map (fun e => if e.1 = key then (key, a) else e), by
      rw [map_fst_replace]; exact pm.nodup⟩
  else ⟨pm.m ++ [(key, a)], by
    rw [List.map_append, List.nodup_append]
    exact ⟨pm.nodup, List.nodup_singleton _, by simpa using h⟩⟩

/-- `delete(key)`. -/
def delete (pm : PMap) (key : String) : PMap :=
  ⟨pm.m.filter (·.1 != key), pm.nodup.sublist ((List.filter_sublist pm.m).map Prod.fst)⟩

/-- `len()`: the number of entries `Range` visits. -/
def len (pm : PMap) : Nat := pm.m.length

/-- `iterate(f)`: `Range` over the entries, `f` threading the state of its closure and
returning whether to go on. -/
def iterate {σ : Type} (pm : PMap) (f : σ → String → Nat → σ × Bool) (s : σ) : σ :=
  go pm.m s
where
  /-- The entries left to visit. -/
  go : List (String × Nat) → σ → σ
    | [], s => s
    | (ns, a) :: rest, s => if (f s ns a).2 then go rest (f s ns a).1 else (f s ns a).1

/-- What `cleanup` leaves of a `Partitions`: every node set to `nil`, then the rows and the
regimes dropped. -/
def cleared (p : Partitions) : Partitions := { p with Replicas := [], regimes := [] }

/-- `cleanup()`: `Range` over the entries, clearing each `Partitions` and deleting its key. -/
def cleanup (pm : PMap) (h : PHeap) : PMap × PHeap :=
  pm.iterate (fun acc ns a => ((acc.1.delete ns, acc.2.modify cleared a), true)) (pm, h)

/-- `clone()`: `Range` over the entries, storing a `clone()` of each `Partitions`, a new
object, in a new map. -/
def clone (pm : PMap) (h : PHeap) : PMap × PHeap :=
  pm.iterate (fun acc ns a =>
    ((acc.1.set ns acc.2.length, acc.2 ++ [(acc.2.read a).clone]), true)) (empty, h)

/-- The contents of the map in a heap: each namespace with its `Partitions`, as `validate`
reads them. -/
def contents (pm : PMap) (h : PHeap) : PartitionMap :=
  ⟨pm.m.map fun e => (e.1, h.read e.2), by rw [List.map_map]; exact pm.nodup⟩

theorem iterate_go_of_true {σ : Type} {f : σ → String → Nat → σ × Bool} (hf : ∀ s ns a, (f s ns a).2)
    (l : List (String × Nat)) (s : σ) :
  iterate.go f l s = l.foldl (fun s e => (f s e.1 e.2).1) s
  := by
  induction l generalizing s with
  | nil => rfl
  | cons e l ih => rw [iterate.go, if_pos (hf _ _ _), ih]; rfl

theorem set_of_not_mem {pm : PMap} {key : String} (h : key ∉ pm.m.map Prod.fst) (a : Nat) :
  (pm.set key a).m = pm.m ++ [(key, a)]
  := by
  rw [set, dif_neg h]

theorem delete_m (pm : PMap) (key : String) : (pm.delete key).m = pm.m.filter (·.1 != key) := rfl

/-! ### `cleanup` -/

theorem read_modify_cleared (h : PHeap) (a b : Nat) :
  PHeap.read (h.modify cleared a) b = if a = b then cleared (h.read b) else h.read b
  := by
  split_ifs with hab
  · subst hab
    simp only [PHeap.read, List.getD_eq_getElem?_getD, List.getElem?_modify, if_pos rfl]
    cases h[a]? <;> rfl
  · exact PHeap.read_modify_of_ne hab cleared

theorem cleared_cleared (p : Partitions) : cleared (cleared p) = cleared p := rfl

/-- The loop of `cleanup` deletes the keys it visits and clears the objects they point to. -/
theorem foldl_cleanup (l : List (String × Nat)) (q : PMap) (h : PHeap) :
  let r := l.foldl (fun acc e => (acc.1.delete e.1, acc.2.modify cleared e.2)) (q, h)
  r.1.m = q.m.filter (fun e => e.1 ∉ l.map Prod.fst) ∧ r.2.length = h.length ∧
    ∀ b, r.2.read b = if b ∈ l.map Prod.snd then cleared (h.read b) else h.read b
  := by
  induction l generalizing q h with
  | nil => simp
  | cons e l ih =>
    obtain ⟨h₁, h₂, h₃⟩ := ih (q.delete e.1) (h.modify cleared e.2)
    refine ⟨?_, by rw [List.foldl_cons, h₂, List.length_modify], fun b => ?_⟩
    · rw [List.foldl_cons, h₁, delete_m, List.filter_filter]
      congr 1
      funext x
      rw [Bool.eq_iff_iff]
      simp [not_or, and_comm]
    · rw [List.foldl_cons, h₃, read_modify_cleared]
      by_cases hb : b = e.2
      · subst hb
        simp [cleared_cleared]
      · rw [if_neg (Ne.symm hb)]
        simp only [List.map_cons, List.mem_cons, hb, false_or]

/-- `cleanup` leaves the map empty and clears every object it held, and no other. -/
theorem cleanup_spec (pm : PMap) (h : PHeap) :
  (pm.cleanup h).1.m = [] ∧ (pm.cleanup h).2.length = h.length ∧
    ∀ b, (pm.cleanup h).2.read b =
      if b ∈ pm.m.map Prod.snd then cleared (h.read b) else h.read b
  := by
  obtain ⟨h₁, h₂, h₃⟩ := foldl_cleanup pm.m pm h
  rw [cleanup, iterate, iterate_go_of_true (fun _ _ _ => rfl)]
  refine ⟨?_, h₂, h₃⟩
  rw [h₁, List.filter_eq_nil_iff]
  exact fun e he => by simpa using List.mem_map_of_mem Prod.fst he

/-! ### `clone` -/

theorem clone_self (p : Partitions) : p.clone = p := by
  simp [Partitions.clone]

/-- The loop of `clone` adds each namespace it visits to the new map, with a new object holding
a copy of its `Partitions`. -/
theorem foldl_clone (l : List (String × Nat)) (q : PMap) (g : PHeap)
    (hkeys : ∀ e ∈ l, e.1 ∉ q.m.map Prod.fst) (hnd : (l.map Prod.fst).Nodup)
    (hlt : ∀ e ∈ l, e.2 < g.length) :
  let r := l.foldl (fun (acc : PMap × PHeap) e =>
    (acc.1.set e.1 acc.2.length, acc.2 ++ [(acc.2.read e.2).clone])) (q, g)
  r.1.m = q.m ++ (l.map Prod.fst).zip (List.range' g.length l.length) ∧
    r.2 = g ++ l.map fun e => g.read e.2
  := by
  induction l generalizing q g with
  | nil => simp
  | cons e l ih =>
    rw [List.map_cons, List.nodup_cons] at hnd
    have hq : (q.set e.1 g.length).m = q.m ++ [(e.1, g.length)] :=
      set_of_not_mem (hkeys e (List.mem_cons_self e l)) _
    obtain ⟨h₁, h₂⟩ := ih (q.set e.1 g.length) (g ++ [(g.read e.2).clone])
      (fun e' he' => by
        rw [hq, List.map_append, List.mem_append, not_or]
        exact ⟨hkeys e' (List.mem_cons_of_mem e he'),
          by simp only [List.map_cons, List.map_nil, List.mem_singleton]
             exact fun heq => hnd.1 (heq ▸ List.mem_map_of_mem Prod.fst he')⟩)
      hnd.2 (fun e' he' => by
        rw [List.length_append]; exact Nat.lt_succ_of_lt (hlt e' (List.mem_cons_of_mem e he')))
    refine ⟨?_, ?_⟩
    · rw [List.foldl_cons, h₁, hq, List.length_append, List.length_singleton, List.length_cons,
        List.range'_succ,
        List.map_cons, List.zip_cons_cons, List.append_assoc, List.singleton_append]
    · rw [List.foldl_cons, h₂, clone_self, List.map_cons, List.append_assoc, List.singleton_append]
      congr 2
      exact List.map_congr_left fun e' he' =>
        PHeap.read_append_of_lt (hlt e' (List.mem_cons_of_mem e he')) _

/-- `clone` makes a map of the same namespaces, in the order it visits them, over new objects
appended to the heap, each a copy of the original's. -/
theorem clone_spec (pm : PMap) (h : PHeap) (hlt : ∀ e ∈ pm.m, e.2 < h.length) :
  (pm.clone h).1.m = (pm.m.map Prod.fst).zip (List.range' h.length pm.m.length) ∧
    (pm.clone h).2 = h ++ pm.m.map fun e => h.read e.2
  := by
  rw [clone, iterate, iterate_go_of_true (fun _ _ _ => rfl)]
  exact foldl_clone pm.m empty h (fun _ _ => List.not_mem_nil _) pm.nodup hlt

theorem map_zip_range'_read (l : List (String × Nat)) (f : String × Nat → Partitions) (g : PHeap) :
  ((l.map Prod.fst).zip (List.range' g.length l.length)).map
      (fun e => (e.1, PHeap.read (g ++ l.map f) e.2)) = l.map fun e => (e.1, f e)
  := by
  induction l generalizing g with
  | nil => rfl
  | cons e l ih =>
    rw [List.map_cons, List.length_cons, List.range'_succ, List.map_cons, List.zip_cons_cons,
      List.map_cons, List.map_cons, List.append_cons, ← ih (g ++ [f e]), List.length_append,
      List.length_singleton]
    simp [PHeap.read, List.getElem_append_right]

/-- The clone holds, namespace by namespace, what the original holds. -/
theorem clone_contents (pm : PMap) (h : PHeap) (hlt : ∀ e ∈ pm.m, e.2 < h.length) :
  (pm.clone h).1.contents (pm.clone h).2 = pm.contents h
  := by
  obtain ⟨h₁, h₂⟩ := clone_spec pm h hlt
  simp only [contents, PartitionMap.mk.injEq]
  rw [h₁, h₂, map_zip_range'_read]

/-! ### The objects a map holds -/

/-- The addresses of the objects the map holds. -/
def addrs (pm : PMap) : List Nat := pm.m.map Prod.snd

@[simp] theorem empty_addrs : empty.addrs = [] := rfl

theorem mem_addrs_set {pm : PMap} {key : String} {a b : Nat} (hb : b ∈ (pm.set key a).addrs) :
  b = a ∨ b ∈ pm.addrs
  := by
  unfold set at hb
  split_ifs at hb
  · obtain ⟨e, he, rfl⟩ := List.mem_map.mp hb
    obtain ⟨e', he', rfl⟩ := List.mem_map.mp he
    by_cases hk : e'.1 = key
    · simp [hk]
    · exact .inr (by simpa [hk, addrs] using List.mem_map_of_mem Prod.snd he')
  · simpa [addrs, or_comm] using hb

theorem mem_addrs_delete {pm : PMap} {key : String} {b : Nat} (hb : b ∈ (pm.delete key).addrs) :
  b ∈ pm.addrs
  := (List.filter_sublist pm.m).map Prod.snd |>.subset hb

theorem get_mem_addrs {pm : PMap} {key : String} {a : Nat} (ha : pm.get key = some a) :
  a ∈ pm.addrs
  := by
  obtain ⟨m, _⟩ := pm
  simp only [get, addrs] at ha ⊢
  induction m with
  | nil => cases ha
  | cons e m ih =>
    rw [List.lookup] at ha
    split at ha
    · cases ha
      exact List.mem_cons_self _ _
    · exact List.mem_cons_of_mem _ (ih ((List.nodup_cons.mp ‹_›).2) ha)

theorem cleanup_addrs (pm : PMap) (h : PHeap) : (pm.cleanup h).1.addrs = [] := by
  simp [addrs, (cleanup_spec pm h).1]

theorem clone_addrs (pm : PMap) (h : PHeap) (hlt : ∀ a ∈ pm.addrs, a < h.length) :
  (pm.clone h).1.addrs = List.range' h.length pm.m.length ∧
    (pm.clone h).2.length = h.length + pm.m.length
  := by
  have hlt' : ∀ e ∈ pm.m, e.2 < h.length := fun e he => hlt e.2 (List.mem_map_of_mem _ he)
  obtain ⟨h₁, h₂⟩ := clone_spec pm h hlt'
  rw [addrs, h₁, h₂, List.map_snd_zip _ _ (by simp)]
  simp

/-- The contents of a map read only its own objects. -/
theorem contents_congr {pm : PMap} {h h' : PHeap} (hread : ∀ a ∈ pm.addrs, h'.read a = h.read a) :
  pm.contents h' = pm.contents h
  := by
  simp only [contents, PartitionMap.mk.injEq]
  exact List.map_congr_left fun e he => by rw [hread e.2 (List.mem_map_of_mem _ he)]

end PMap

end AerospikeClient
