import AerospikeClient.Partitions.Map

/-!
# A client of partition maps

A client holds partition maps and `*Partitions` pointers, and calls the functions of
`partitions.go` on them (`PCmd`, `step`); it may also write through a pointer, as the code that
fills a partition table assigns nodes to `Replicas[replica][partition]`. A call the client could
not make, on a map or a pointer it does not hold, or one that panics on a `nil` pointer, stops the
run. Storing a `nil` pointer with `set` also stops it: the model leaves out maps that hold `nil`.

Every reachable state is well formed: the maps and the client hold addresses of allocated objects
only (`Reachable.wf`). The clone of a map is isolated: no other map and no pointer of the client
reaches its objects, and every call that does not name it keeps it so (`step_isolated`). Hence
whatever calls follow, the cleanup of the original map included, the clone keeps the contents the
original had when it was cloned (`clone_snapshot`). The maps themselves share: `cleanup` clears
the objects it reaches for every map that holds them (`cleanup_shared`), so that another map then
passes `validate` exactly when it passed before and shares none of them (`cleanup_validate`).
-/

namespace AerospikeClient

/-- The calls of a client: the maps and the pointers it holds are numbered in the order it got
them. -/
inductive PCmd where
  /-- `newPartitionMap()`. -/
  | newPartitionMap
  /-- `newPartitions(partitionCount, replicaCount, cpMode)`, keeping the pointer. -/
  | newPartitions (partitionCount replicaCount : Nat) (cpMode : Bool)
  /-- `get(key)` on the `i`-th map, keeping the pointer, `nil` where `ok` is `false`. -/
  | get (i : Nat) (key : String)
  /-- `set(key, p)` on the `i`-th map, `p` the `v`-th pointer. -/
  | set (i : Nat) (key : String) (v : Nat)
  /-- `delete(key)` on the `i`-th map. -/
  | delete (i : Nat) (key : String)
  /-- `setReplicaCount(replicaCount)` through the `v`-th pointer. -/
  | setReplicaCount (v replicaCount : Nat)
  /-- A write through the `v`-th pointer, such as an assignment to one of its nodes. -/
  | write (v : Nat) (f : Partitions → Partitions)
  /-- `cleanup()` on the `i`-th map. -/
  | cleanup (i : Nat)
  /-- `clone()` of the `i`-th map, keeping the new map. -/
  | clone (i : Nat)

/-- Whether a call names the `j`-th map as the one it reads a pointer from or changes; `clone`
reads the map but hands out no pointer into it. -/
def PCmd.names (j : Nat) : PCmd → Bool
  | .get i _ | .set i _ _ | .delete i _ | .cleanup i => i == j
  | _ => false

/-- The objects, the maps of the client, and its pointers, `none` for `nil`. -/
structure PState where
  heap : PHeap
  maps : List PMap
  vars : List (Option Nat)

namespace PState

/-- A client before its first call. -/
def init : PState := ⟨[], [], []⟩

/-- The `i`-th map; a map the client does not hold is empty. -/
def map (s : PState) (i : Nat) : PMap := s.maps.getD i PMap.empty

/-- The `v`-th pointer, `none` for `nil` or for one the client does not hold. -/
def ptr (s : PState) (v : Nat) : Option Nat := s.vars.getD v none

theorem ptr_mem {s : PState} {v a : Nat} (h : s.ptr v = some a) : some a ∈ s.vars := by
  unfold ptr at h
  rw [List.getD_eq_getElem?_getD] at h
  cases hv : s.vars[v]? with
  | none => simp [hv] at h
  | some x => simp only [hv, Option.getD_some] at h; exact h ▸ List.getElem?_mem hv

@[simp] theorem map_mk (heap : PHeap) (maps : List PMap) (vars : List (Option Nat)) (k : Nat) :
  (⟨heap, maps, vars⟩ : PState).map k = maps.getD k PMap.empty
  := rfl

theorem getD_set_maps {s : PState} {i : Nat} (hi : i < s.maps.length) (pm : PMap) (k : Nat) :
  (s.maps.set i pm).getD k PMap.empty = if k = i then pm else s.map k
  := by
  unfold map
  split_ifs with hk
  · subst hk
    rw [List.getD_eq_getElem _ _ (by simpa using hi), List.getElem_set_self]
  · simp only [List.getD_eq_getElem?_getD, List.getElem?_set, Ne.symm hk, if_false]

theorem map_set_of_ne (s : PState) (heap : PHeap) (vars : List (Option Nat)) {i k : Nat}
    (pm : PMap) (hk : k ≠ i) :
  PState.map ⟨heap, s.maps.set i pm, vars⟩ k = s.map k
  := by
  simp only [map_mk, map, List.getD_eq_getElem?_getD, List.getElem?_set, Ne.symm hk, if_false]

theorem getD_append_maps (s : PState) (pm : PMap) (k : Nat) :
  (s.maps ++ [pm]).getD k PMap.empty = if k = s.maps.length then pm else s.map k
  := by
  unfold map
  split_ifs with hk
  · subst hk
    simp
  · rcases Nat.lt_or_gt_of_ne hk with hk | hk
    · exact List.getD_append _ _ _ _ hk
    · rw [List.getD_eq_default _ _ (by simp; omega), List.getD_eq_default _ _ hk.le]

end PState

section Step

variable (_PARTITIONS : Nat)

/-- One call; `none` where the client stops. -/
def step (s : PState) : PCmd → Option PState
  | .newPartitionMap => some { s with maps := s.maps ++ [PMap.empty] }
  | .newPartitions partitionCount replicaCount cpMode =>
    some { s with
      heap := s.heap ++ [Partitions.newPartitions partitionCount replicaCount cpMode]
      vars := s.vars ++ [some s.heap.length] }
  | .get i key =>
    if i < s.maps.length then some { s with vars := s.vars ++ [(s.map i).get key] } else none
  | .set i key v =>
    match s.ptr v with
    | some a =>
      if i < s.maps.length then some { s with maps := s.maps.set i ((s.map i).set key a) }
      else none
    | none => none
  | .delete i key =>
    if i < s.maps.length then some { s with maps := s.maps.set i ((s.map i).delete key) }
    else none
  | .setReplicaCount v replicaCount =>
    (s.ptr v).map fun a =>
      { s with heap := s.heap.modify (Partitions.setReplicaCount _PARTITIONS · replicaCount) a }
  | .write v f => (s.ptr v).map fun a => { s with heap := s.heap.modify f a }
  | .cleanup i =>
    if i < s.maps.length then
      some { s with
        maps := s.maps.set i ((s.map i).cleanup s.heap).1
        heap := ((s.map i).cleanup s.heap).2 }
    else none
  | .clone i =>
    if i < s.maps.length then
      some { s with
        maps := s.maps ++ [((s.map i).clone s.heap).1]
        heap := ((s.map i).clone s.heap).2 }
    else none

/-- A run of calls; `none` where the client stops. -/
def run (s : PState) : List PCmd → Option PState
  | [] => some s
  | c :: cs => (step _PARTITIONS s c).bind fun s' => run s' cs

/-- The states a client reaches from its first call. -/
inductive Reachable : PState → Prop
  | init : Reachable PState.init
  | step {s s' : PState} {c : PCmd} : Reachable s → step _PARTITIONS s c = some s' → Reachable s'

/-- A property every step of a given kind keeps holds after every run of such steps. -/
theorem run_preserves (P : PCmd → Prop) (I : PState → Prop)
    (hstep : ∀ s c s', P c → I s → step _PARTITIONS s c = some s' → I s') :
  ∀ {s s' : PState} {cs : List PCmd}, (∀ c ∈ cs, P c) → I s → run _PARTITIONS s cs = some s' →
    I s'
  := by
  intro s s' cs
  induction cs generalizing s with
  | nil => rintro - hs ⟨⟩; exact hs
  | cons c cs ih =>
    intro hcs hs hrun
    obtain ⟨s₁, h₁, h₂⟩ := Option.bind_eq_some.mp hrun
    exact ih (fun c' hc' => hcs c' (List.mem_cons_of_mem c hc'))
      (hstep s c s₁ (hcs c (List.mem_cons_self c cs)) hs h₁) h₂

/-! ### Well-formed states -/

/-- The maps and the client hold addresses of allocated objects only. -/
structure PState.WF (s : PState) : Prop where
  maps : ∀ k, ∀ a ∈ (s.map k).addrs, a < s.heap.length
  vars : ∀ a, some a ∈ s.vars → a < s.heap.length

theorem PState.WF.ptr_lt {s : PState} (hs : s.WF) {v a : Nat} (h : s.ptr v = some a) :
  a < s.heap.length
  := hs.vars a (PState.ptr_mem h)

/-- Every call keeps a state well formed. -/
theorem step_wf {s s' : PState} {c : PCmd} (hs : s.WF) (h : step _PARTITIONS s c = some s') :
  s'.WF
  := by
  cases c with
  | newPartitionMap =>
    cases h
    refine ⟨fun k a ha => ?_, hs.vars⟩
    rw [PState.map_mk, PState.getD_append_maps] at ha
    split_ifs at ha
    · cases ha
    · exact hs.maps k a ha
  | newPartitions n r cp =>
    cases h
    refine ⟨fun k a ha => ?_, fun a ha => ?_⟩
    · simpa using Nat.lt_succ_of_lt (hs.maps k a ha)
    · rcases List.mem_append.mp ha with ha | ha
      · simpa using Nat.lt_succ_of_lt (hs.vars a ha)
      · simp_all
  | get i key =>
    simp only [step, Option.ite_none_right_eq_some, Option.some.injEq] at h
    obtain ⟨-, rfl⟩ := h
    refine ⟨hs.maps, fun a ha => ?_⟩
    rcases List.mem_append.mp ha with ha | ha
    · exact hs.vars a ha
    · exact hs.maps i a (PMap.get_mem_addrs (List.mem_singleton.mp ha).symm)
  | set i key v =>
    simp only [step] at h
    split at h
    · simp only [Option.ite_none_right_eq_some, Option.some.injEq] at h
      obtain ⟨hi, rfl⟩ := h
      refine ⟨fun k b hb => ?_, hs.vars⟩
      rw [PState.map_mk, PState.getD_set_maps hi] at hb
      split_ifs at hb
      · rcases PMap.mem_addrs_set hb with rfl | hb
        · exact hs.ptr_lt ‹_›
        · exact hs.maps i b hb
      · exact hs.maps k b hb
    · cases h
  | delete i key =>
    simp only [step, Option.ite_none_right_eq_some, Option.some.injEq] at h
    obtain ⟨hi, rfl⟩ := h
    refine ⟨fun k b hb => ?_, hs.vars⟩
    rw [PState.map_mk, PState.getD_set_maps hi] at hb
    split_ifs at hb
    · exact hs.maps i b (PMap.mem_addrs_delete hb)
    · exact hs.maps k b hb
  | setReplicaCount v _ | write v _ =>
    obtain ⟨a, -, rfl⟩ := Option.map_eq_some'.mp h
    exact ⟨fun k b hb => by rw [List.length_modify]; exact hs.maps k b hb,
      fun b hb => by rw [List.length_modify]; exact hs.vars b hb⟩
  | cleanup i =>
    simp only [step, Option.ite_none_right_eq_some, Option.some.injEq] at h
    obtain ⟨hi, rfl⟩ := h
    have hlen := (PMap.cleanup_spec (s.map i) s.heap).2.1
    refine ⟨fun k b hb => ?_, fun a ha => hlen ▸ hs.vars a ha⟩
    rw [PState.map_mk, PState.getD_set_maps hi] at hb
    split_ifs at hb
    · simp [PMap.cleanup_addrs] at hb
    · exact hlen ▸ hs.maps k b hb
  | clone i =>
    simp only [step, Option.ite_none_right_eq_some, Option.some.injEq] at h
    obtain ⟨-, rfl⟩ := h
    obtain ⟨haddrs, hlen⟩ := PMap.clone_addrs (s.map i) s.heap (hs.maps i)
    refine ⟨fun k b hb => ?_, fun a ha => by simp only [hlen]; exact Nat.lt_add_right _ (hs.vars a ha)⟩
    rw [PState.map_mk, PState.getD_append_maps] at hb
    simp only [hlen]
    split_ifs at hb
    · rw [haddrs, List.mem_range'_1] at hb
      exact hb.2
    · exact Nat.lt_add_right _ (hs.maps k b hb)

/-- Every reachable state is well formed. -/
theorem Reachable.wf {s : PState} (hs : Reachable _PARTITIONS s) : s.WF := by
  induction hs with
  | init => exact ⟨fun k a ha => by simp [PState.init, PState.map] at ha, by simp [PState.init]⟩
  | step _ h ih => exact step_wf _PARTITIONS ih h

/-! ### The clone of a map -/

/-- Some map other than the `j`-th, or a pointer of the client, holds the address `a`. -/
def Held (s : PState) (j a : Nat) : Prop := (∃ k, k ≠ j ∧ a ∈ (s.map k).addrs) ∨ some a ∈ s.vars

theorem held_append_map {heap : PHeap} {maps : List PMap} {vars : List (Option Nat)} {pm : PMap}
    {j a : Nat} (h : Held ⟨heap, maps ++ [pm], vars⟩ j a) :
  Held ⟨heap, maps, vars⟩ j a ∨ j ≠ maps.length ∧ a ∈ pm.addrs
  := by
  rcases h with ⟨k, hk, ha⟩ | ha
  · rw [PState.map_mk, PState.getD_append_maps ⟨heap, maps, vars⟩] at ha
    split_ifs at ha with hkl
    · exact .inr ⟨hkl ▸ Ne.symm hk, ha⟩
    · exact .inl (.inl ⟨k, hk, ha⟩)
  · exact .inl (.inr ha)

theorem held_set_map {heap : PHeap} {maps : List PMap} {vars : List (Option Nat)} {pm : PMap}
    {i j a : Nat} (hi : i < maps.length) (h : Held ⟨heap, maps.set i pm, vars⟩ j a) :
  Held ⟨heap, maps, vars⟩ j a ∨ a ∈ pm.addrs
  := by
  rcases h with ⟨k, hk, ha⟩ | ha
  · rw [PState.map_mk, PState.getD_set_maps (s := ⟨heap, maps, vars⟩) hi] at ha
    split_ifs at ha
    · exact .inr ha
    · exact .inl (.inl ⟨k, hk, ha⟩)
  · exact .inl (.inr ha)

theorem held_append_var {heap : PHeap} {maps : List PMap} {vars : List (Option Nat)}
    {x : Option Nat} {j a : Nat} (h : Held ⟨heap, maps, vars ++ [x]⟩ j a) :
  Held ⟨heap, maps, vars⟩ j a ∨ x = some a
  := by
  rcases h with h | ha
  · exact .inl (.inl h)
  · rcases List.mem_append.mp ha with ha | ha
    · exact .inl (.inr ha)
    · exact .inr (List.mem_singleton.mp ha).symm

/-- The `j`-th map holds the contents `C`, and no other map and no pointer of the client holds
one of its objects. -/
structure Isolated (s : PState) (j : Nat) (C : PartitionMap) : Prop where
  lt : j < s.maps.length
  contents : (s.map j).contents s.heap = C
  fresh : ∀ a, Held s j a → a ∉ (s.map j).addrs

/-- A call keeps the `j`-th map isolated when it leaves the map and its objects as they were,
and hands out only addresses held before or newly allocated. -/
theorem Isolated.of_step {s s' : PState} {j : Nat} {C : PartitionMap} (hwf : s.WF)
    (hs : Isolated s j C) (hlt : j < s'.maps.length) (hj : s'.map j = s.map j)
    (hread : ∀ a ∈ (s.map j).addrs, s'.heap.read a = s.heap.read a)
    (hheld : ∀ a, Held s' j a → Held s j a ∨ s.heap.length ≤ a) :
  Isolated s' j C
  := by
  refine ⟨hlt, by rw [hj, PMap.contents_congr hread, hs.contents], fun a ha => ?_⟩
  rw [hj]
  rcases hheld a ha with ha | ha
  · exact hs.fresh a ha
  · exact fun hm => absurd (hwf.maps j a hm) (Nat.not_lt.mpr ha)

/-- A write through a pointer of the client keeps every map it does not reach isolated. -/
theorem Isolated.modify {s : PState} {j : Nat} {C : PartitionMap} (hwf : s.WF)
    (hs : Isolated s j C) {a : Nat} (ha : some a ∈ s.vars) (f : Partitions → Partitions) :
  Isolated { s with heap := s.heap.modify f a } j C
  := hs.of_step hwf hs.lt rfl
    (fun b hb => PHeap.read_modify_of_ne (fun hab : a = b => hs.fresh a (.inr ha) (hab ▸ hb)) f)
    (fun _ h => .inl h)

/-- Every call that does not name the `j`-th map keeps it isolated. -/
theorem step_isolated {s s' : PState} {c : PCmd} {j : Nat} {C : PartitionMap} (hwf : s.WF)
    (hs : Isolated s j C) (hc : c.names j = false) (h : step _PARTITIONS s c = some s') :
  Isolated s' j C
  := by
  have hj : ¬j = s.maps.length := Nat.ne_of_lt hs.lt
  cases c with
  | newPartitionMap =>
    cases h
    refine hs.of_step hwf (by simpa using Nat.lt_succ_of_lt hs.lt)
      (by rw [PState.map_mk, PState.getD_append_maps, if_neg hj]) (fun _ _ => rfl) fun a ha => ?_
    rcases held_append_map ha with ha | ⟨-, ha⟩
    · exact .inl ha
    · cases ha
  | newPartitions n r cp =>
    cases h
    refine hs.of_step hwf hs.lt rfl
      (fun a ha => PHeap.read_append_of_lt (hwf.maps j a ha) _) fun a ha => ?_
    rcases held_append_var ha with ha | ha
    · exact .inl ha
    · exact .inr (Option.some.inj ha).le
  | get i key =>
    simp only [step, Option.ite_none_right_eq_some, Option.some.injEq] at h
    obtain ⟨hi, rfl⟩ := h
    refine hs.of_step hwf hs.lt rfl (fun _ _ => rfl) fun a ha => ?_
    rcases held_append_var ha with ha | ha
    · exact .inl ha
    · exact .inl (.inl ⟨i, by simpa [PCmd.names] using hc, PMap.get_mem_addrs ha⟩)
  | set i key v =>
    simp only [step] at h
    split at h
    · simp only [Option.ite_none_right_eq_some, Option.some.injEq] at h
      obtain ⟨hi, rfl⟩ := h
      have hij : i ≠ j := by simpa [PCmd.names] using hc
      refine hs.of_step hwf (by simpa using hs.lt)
        (PState.map_set_of_ne s _ _ _ hij.symm) (fun _ _ => rfl)
        fun b hb => ?_
      rcases held_set_map hi hb with hb | hb
      · exact .inl hb
      · rcases PMap.mem_addrs_set hb with rfl | hb
        · exact .inl (.inr (PState.ptr_mem ‹_›))
        · exact .inl (.inl ⟨i, hij, hb⟩)
    · cases h
  | delete i key =>
    simp only [step, Option.ite_none_right_eq_some, Option.some.injEq] at h
    obtain ⟨hi, rfl⟩ := h
    have hij : i ≠ j := by simpa [PCmd.names] using hc
    refine hs.of_step hwf (by simpa using hs.lt)
      (PState.map_set_of_ne s _ _ _ hij.symm) (fun _ _ => rfl)
      fun b hb => ?_
    rcases held_set_map hi hb with hb | hb
    · exact .inl hb
    · exact .inl (.inl ⟨i, hij, PMap.mem_addrs_delete hb⟩)
  | setReplicaCount v _ | write v _ =>
    obtain ⟨a, ha, rfl⟩ := Option.map_eq_some'.mp h
    exact hs.modify hwf (PState.ptr_mem ha) _
  | cleanup i =>
    simp only [step, Option.ite_none_right_eq_some, Option.some.injEq] at h
    obtain ⟨hi, rfl⟩ := h
    have hij : i ≠ j := by simpa [PCmd.names] using hc
    refine hs.of_step hwf (by simpa using hs.lt)
      (PState.map_set_of_ne s _ _ _ hij.symm)
      (fun b hb => ?_) fun b hb => ?_
    · rw [(PMap.cleanup_spec (s.map i) s.heap).2.2, if_neg]
      exact fun hbi => hs.fresh b (.inl ⟨i, hij, hbi⟩) hb
    · rcases held_set_map hi hb with hb | hb
      · exact .inl hb
      · simp [PMap.cleanup_addrs] at hb
  | clone i =>
    simp only [step, Option.ite_none_right_eq_some, Option.some.injEq] at h
    obtain ⟨-, rfl⟩ := h
    obtain ⟨haddrs, -⟩ := PMap.clone_addrs (s.map i) s.heap (hwf.maps i)
    have hheap := (PMap.clone_spec (s.map i) s.heap fun e he =>
      hwf.maps i e.2 (List.mem_map_of_mem _ he)).2
    refine hs.of_step hwf (by simpa using Nat.lt_succ_of_lt hs.lt)
      (by rw [PState.map_mk, PState.getD_append_maps, if_neg hj])
      (fun b hb => by rw [hheap]; exact PHeap.read_append_of_lt (hwf.maps j b hb) _) fun b hb => ?_
    rcases held_append_map hb with hb | ⟨-, hb⟩
    · exact .inl hb
    · rw [haddrs, List.mem_range'_1] at hb
      exact .inr hb.1

/-- The clone of a map is isolated, with the contents of the original. -/
theorem isolated_clone {s s' : PState} {i : Nat} (hwf : s.WF)
    (h : step _PARTITIONS s (.clone i) = some s') :
  Isolated s' s.maps.length ((s.map i).contents s.heap)
  := by
  simp only [step, Option.ite_none_right_eq_some, Option.some.injEq] at h
  obtain ⟨-, rfl⟩ := h
  have hlt : ∀ e ∈ (s.map i).m, e.2 < s.heap.length := fun e he =>
    hwf.maps i e.2 (List.mem_map_of_mem _ he)
  have hmap : PState.map ⟨((s.map i).clone s.heap).2, s.maps ++ [((s.map i).clone s.heap).1],
      s.vars⟩ s.maps.length = ((s.map i).clone s.heap).1 := by
    rw [PState.map_mk, PState.getD_append_maps, if_pos rfl]
  refine ⟨by simp, by rw [hmap]; exact PMap.clone_contents _ _ hlt, fun a ha => ?_⟩
  rw [hmap, (PMap.clone_addrs (s.map i) s.heap (hwf.maps i)).1, List.mem_range'_1, not_and_or,
    Nat.not_le]
  refine .inl ?_
  rcases held_append_map ha with ⟨⟨k, -, ha⟩ | ha⟩ | ⟨hj, -⟩
  · exact hwf.maps k a ha
  · exact hwf.vars a ha
  · exact absurd rfl hj

/-- Whatever calls follow the clone of a map, as long as none names the clone, the clone holds
what the original held when it was cloned: its cleanup, or any write to its objects, leaves the
clone as it was. -/
theorem clone_snapshot {s s₁ s₂ : PState} {i : Nat} {cs : List PCmd}
    (hs : Reachable _PARTITIONS s) (h₁ : step _PARTITIONS s (.clone i) = some s₁)
    (hcs : ∀ c ∈ cs, c.names s.maps.length = false) (h₂ : run _PARTITIONS s₁ cs = some s₂) :
  (s₂.map s.maps.length).contents s₂.heap = (s.map i).contents s.heap
  := (run_preserves _PARTITIONS _ (fun s => s.WF ∧ Isolated s _ _)
    (fun _ _ _ hc hs h => ⟨step_wf _PARTITIONS hs.1 h, step_isolated _PARTITIONS hs.1 hs.2 hc h⟩)
    hcs ⟨step_wf _PARTITIONS hs.wf h₁, isolated_clone _PARTITIONS hs.wf h₁⟩ h₂).2.contents

/-- A map of one namespace, cloned, then cleaned up: the clone keeps the rows the cleanup
drops. -/
theorem clone_snapshot_cleanup :
  Reachable 1 ⟨[Partitions.newPartitions 1 1 false], [PMap.empty.set "test" 0], [some 0]⟩ ∧
    step 1 ⟨[Partitions.newPartitions 1 1 false], [PMap.empty.set "test" 0], [some 0]⟩ (.clone 0) =
      some ⟨[Partitions.newPartitions 1 1 false, Partitions.newPartitions 1 1 false],
        [PMap.empty.set "test" 0, PMap.empty.set "test" 1], [some 0]⟩ ∧
    (∀ c ∈ [PCmd.cleanup 0], c.names 1 = false) ∧
    run 1 ⟨[Partitions.newPartitions 1 1 false, Partitions.newPartitions 1 1 false],
        [PMap.empty.set "test" 0, PMap.empty.set "test" 1], [some 0]⟩ [.cleanup 0] =
      some ⟨[PMap.cleared (Partitions.newPartitions 1 1 false), Partitions.newPartitions 1 1 false],
        [PMap.empty, PMap.empty.set "test" 1], [some 0]⟩ ∧
    (PMap.empty.set "test" 1).contents
        [PMap.cleared (Partitions.newPartitions 1 1 false), Partitions.newPartitions 1 1 false] =
      (PMap.empty.set "test" 0).contents [Partitions.newPartitions 1 1 false]
  := by
  have hs : Reachable 1
      ⟨[Partitions.newPartitions 1 1 false], [PMap.empty.set "test" 0], [some 0]⟩ :=
    .step (c := .set 0 "test" 0) (.step (c := .newPartitions 1 1 false)
      (.step (c := .newPartitionMap) .init rfl) rfl) rfl
  have hcs : ∀ c ∈ [PCmd.cleanup 0], c.names 1 = false := by decide
  exact ⟨hs, rfl, hcs, rfl, clone_snapshot 1 (i := 0) hs rfl hcs rfl⟩

/-! ### Cleaning up a map -/

/-- `cleanup` empties the map and writes through its pointers: every other map then reads each
object the two share cleared, and every other object as it was. -/
theorem cleanup_shared {s s' : PState} {i : Nat} (h : step _PARTITIONS s (.cleanup i) = some s') :
  (s'.map i).m = [] ∧ ∀ k, k ≠ i → ((s'.map k).contents s'.heap).m =
    (s.map k).m.map fun e => (e.1,
      if e.2 ∈ (s.map i).addrs then PMap.cleared (s.heap.read e.2) else s.heap.read e.2)
  := by
  simp only [step, Option.ite_none_right_eq_some, Option.some.injEq] at h
  obtain ⟨hi, rfl⟩ := h
  obtain ⟨hm, -, hread⟩ := PMap.cleanup_spec (s.map i) s.heap
  refine ⟨by rw [PState.map_mk, PState.getD_set_maps hi, if_pos rfl, hm], fun k hk => ?_⟩
  rw [PState.map_set_of_ne s _ _ _ hk]
  exact List.map_congr_left fun e _ => by rw [hread]; rfl

/-- Two maps sharing one object: the cleanup of the first clears the object the second reads. -/
theorem cleanup_shared_object :
  step 1 ⟨[Partitions.newPartitions 1 1 false], [PMap.empty.set "a" 0, PMap.empty.set "b" 0],
      [some 0]⟩ (.cleanup 0) =
      some ⟨[PMap.cleared (Partitions.newPartitions 1 1 false)],
        [PMap.empty, PMap.empty.set "b" 0], [some 0]⟩ ∧
    PMap.empty.m = [] ∧ ∀ k, k ≠ 0 →
      ((PState.map ⟨[PMap.cleared (Partitions.newPartitions 1 1 false)],
        [PMap.empty, PMap.empty.set "b" 0], [some 0]⟩ k).contents
          [PMap.cleared (Partitions.newPartitions 1 1 false)]).m =
      (PState.map ⟨[Partitions.newPartitions 1 1 false],
        [PMap.empty.set "a" 0, PMap.empty.set "b" 0], [some 0]⟩ k).m.map fun e => (e.1,
        if e.2 ∈ (PMap.empty.set "a" 0).addrs then
          PMap.cleared (PHeap.read [Partitions.newPartitions 1 1 false] e.2)
        else PHeap.read [Partitions.newPartitions 1 1 false] e.2)
  := by
  have h : step 1 ⟨[Partitions.newPartitions 1 1 false],
      [PMap.empty.set "a" 0, PMap.empty.set "b" 0], [some 0]⟩ (.cleanup 0) =
      some ⟨[PMap.cleared (Partitions.newPartitions 1 1 false)],
        [PMap.empty, PMap.empty.set "b" 0], [some 0]⟩ := rfl
  exact ⟨h, cleanup_shared 1 h⟩

/-- After `cleanup` of one map, another map passes `validate` exactly when it passed before and
shares no object with the cleaned map: `cleanup` leaves each shared object with no regimes, which
`validate` reports as soon as there is a partition. -/
theorem cleanup_validate (types : Types) {s s' : PState} {i k : Nat} (hP : 0 < _PARTITIONS)
    (h : step _PARTITIONS s (.cleanup i) = some s') (hk : k ≠ i)
    (masterOrder replicaOrder : RangeOrder) :
  validate types _PARTITIONS ((s'.map k).contents s'.heap) masterOrder replicaOrder = none ↔
    validate types _PARTITIONS ((s.map k).contents s.heap) masterOrder replicaOrder = none ∧
      ∀ a ∈ (s.map k).addrs, a ∉ (s.map i).addrs
  := by
  simp only [step, Option.ite_none_right_eq_some, Option.some.injEq] at h
  obtain ⟨-, rfl⟩ := h
  obtain ⟨-, -, hread⟩ := PMap.cleanup_spec (s.map i) s.heap
  rw [PState.map_set_of_ne s _ _ _ hk, validate_eq_none_iff, validate_eq_none_iff]
  simp only [PMap.contents, List.forall_mem_map, PMap.addrs, hread]
  constructor
  · intro hall
    -- a shared object is read cleared, with no regimes
    have hfree : ∀ e ∈ (s.map k).m, e.2 ∉ (s.map i).m.map Prod.snd := fun e he hmem => by
      have hreg := (hall e he).1
      rw [if_pos hmem] at hreg
      simp only [PMap.cleared, List.length_nil] at hreg
      omega
    exact ⟨fun e he => by simpa only [if_neg (hfree e he)] using hall e he, hfree⟩
  · rintro ⟨hall, hfree⟩ e he
    simpa only [if_neg (hfree e he)] using hall e he

/-- Two maps sharing a full table of one partition: both pass `validate`, and after the cleanup of
the first the second fails it. -/
theorem cleanup_validate_shared :
  0 < 1 ∧
    step 1 ⟨[⟨[[some ⟨0⟩]], false, [0]⟩],
        [PMap.empty.set "a" 0, PMap.empty.set "b" 0], []⟩ (.cleanup 0) =
      some ⟨[PMap.cleared ⟨[[some ⟨0⟩]], false, [0]⟩],
        [PMap.empty, PMap.empty.set "b" 0], []⟩ ∧
    1 ≠ 0 ∧
    (validate Types.distinct 1
        ((PMap.empty.set "b" 0).contents [PMap.cleared ⟨[[some ⟨0⟩]], false, [0]⟩]) .id .id =
          none ↔
      validate Types.distinct 1
          ((PMap.empty.set "b" 0).contents [⟨[[some ⟨0⟩]], false, [0]⟩]) .id .id = none ∧
        ∀ a ∈ (PMap.empty.set "b" 0).addrs, a ∉ (PMap.empty.set "a" 0).addrs)
  := by
  have h : step 1 ⟨[⟨[[some ⟨0⟩]], false, [0]⟩],
      [PMap.empty.set "a" 0, PMap.empty.set "b" 0], []⟩ (.cleanup 0) =
      some ⟨[PMap.cleared ⟨[[some ⟨0⟩]], false, [0]⟩],
        [PMap.empty, PMap.empty.set "b" 0], []⟩ := rfl
  exact ⟨by decide, h, by decide, cleanup_validate 1 Types.distinct (k := 1) (by decide) h
    (by decide) .id .id⟩

end Step

end AerospikeClient
