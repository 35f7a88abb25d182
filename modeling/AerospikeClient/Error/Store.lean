import AerospikeClient.Error.Grpc
import Mathlib.Data.List.Infix

/-!
# Errors in memory

The value model of `AerospikeClient.Error.Basic` cannot say whether two errors are the same
record, and the context mutators (`iter`, `setNode`, `setInDoubt`, `markInDoubt`,
`markInDoubtIf`, `wrap`) write the record their receiver points to. Here the records live in a
heap, addressed by position, the package constants first in the order of `constants`; an
`Error` is a pointer, to a `*AerospikeError` or to a `*constAerospikeError` whose methods are
the promoted ones of the record it embeds. A client of the package is a sequence of calls
(`Cmd`), each binding its result to a new variable, and `run` executes it.

A mutator called on a constant passed as is writes the constant's record and hands back a
`*AerospikeError` into it. Every other call writes only records it adds (`Allocates`, `Fresh`),
and returns `nil`, such a record, or a pointer it was handed, so a call keeps the constants
(`Good.step`) and so does a run with no mutator called on a constant passed as is
(`Good.run`, `run_constants`). The calls do return constants as they are:
`chainErrors(nil, c)` and `chainErrors(c, nil)` return `c` itself, and so
`chainErrors(nil, ErrTimeout).iter(5)` sets the iteration of `ErrTimeout`
(`chainErrors_ErrTimeout_iter`).
-/

namespace AerospikeClient

namespace Store

/-- A non-nil pointer in a variable of the `Error` interface. -/
inductive Ref where
  /-- A `*AerospikeError` to the record at an address. -/
  | aerospike (a : Nat)
  /-- A `*constAerospikeError` whose embedded record is at an address. -/
  | const (a : Nat)
deriving DecidableEq, Repr

/-- The address of the record a pointer reaches. -/
def Ref.addr : Ref → Nat
  | .aerospike a => a
  | .const a => a

/-- A non-nil value of Go's `error` interface. -/
inductive Val where
  /-- An `Error`. -/
  | ref (r : Ref)
  /-- An error of another package, wrapping nothing. -/
  | foreign
  /-- An error of another package wrapping an error, as `fmt.Errorf` with `%w` makes. -/
  | wrapping (wrapped : Val)
deriving DecidableEq, Repr

/-- An `AerospikeError` record in memory: its fields, and the `error` in its `wrapped`. -/
structure Cell where
  record : AerospikeError
  wrapped : Option Val
deriving DecidableEq, Repr

/-- The records, by address. -/
abbrev Heap := List Cell

/-- The record at an address; the model reads only addresses it has allocated. -/
def cell (h : Heap) (a : Nat) : Cell := h.getD a ⟨.zero, none⟩

/-- `&AerospikeError{...}` escaping to the heap: a record at the next address. -/
def alloc (h : Heap) (c : Cell) : Heap × Ref := (h ++ [c], .aerospike h.length)

/-- The heap the package starts with: the records of its constants, wrapping nothing. -/
def constHeap (types : Types) : Heap := (constants types).map fun c => ⟨c.AerospikeError, none⟩

/-- The address of `ErrServerNotAvailable` in `constHeap`: its position in `constants`. -/
def serverNotAvailableAddr : Nat := 0

/-- The address of `ErrTimeout`. -/
def timeoutAddr : Nat := 8

/-- The address of `ErrNetTimeout`. -/
def netTimeoutAddr : Nat := 9

/-- The address of `ErrClusterIsEmpty`. -/
def clusterIsEmptyAddr : Nat := 17

/-- The address of `ErrNetwork`. -/
def networkAddr : Nat := 20

example (types : Types) :
    (constants types)[serverNotAvailableAddr]? = some (ErrServerNotAvailable types) ∧
    (constants types)[timeoutAddr]? = some (ErrTimeout types) ∧
    (constants types)[netTimeoutAddr]? = some (ErrNetTimeout types) ∧
    (constants types)[clusterIsEmptyAddr]? = some (ErrClusterIsEmpty types) ∧
    (constants types)[networkAddr]? = some (ErrNetwork types) :=
  ⟨rfl, rfl, rfl, rfl, rfl⟩

/-! ### The functions of the package -/

/-- A method of `*AerospikeError` that writes its receiver's record in place and returns the
receiver. Called on a `*constAerospikeError` it runs on the embedded record, so it writes the
constant and returns a `*AerospikeError` into it. -/
def update (f : Cell → Cell) (x : Ref) (h : Heap) : Heap × Ref :=
  (h.modify f x.addr, .aerospike x.addr)

/-- A mutator of the record's fields other than `wrapped`. -/
def updateRec (f : AerospikeError → AerospikeError) : Ref → Heap → Heap × Ref :=
  update fun c => { c with record := f c.record }

/-- `iter(i)`, with Go's wrapping `int` subtraction. -/
def iter (i : Int) : Ref → Heap → Heap × Ref :=
  updateRec fun e => { e with Iteration := (i - 1).bmod (2 ^ 64) }

/-- `setInDoubt(isRead, commandWasSent)`. -/
def setInDoubt (isRead commandWasSent : Bool) : Ref → Heap → Heap × Ref :=
  updateRec fun e => if !isRead && commandWasSent then { e with InDoubt := true } else e

/-- `setNode(node)`. -/
def setNode (node : Option Node) : Ref → Heap → Heap × Ref :=
  updateRec fun e => { e with Node := node }

/-- `markInDoubt(v)`. -/
def markInDoubt (v : Bool) : Ref → Heap → Heap × Ref :=
  updateRec fun e => { e with InDoubt := v }

/-- `markInDoubtIf(inDoubt)`. -/
def markInDoubtIf (inDoubt : Bool) : Ref → Heap → Heap × Ref :=
  markInDoubt inDoubt

/-- `wrap(err)`. -/
def wrap (err : Option Val) : Ref → Heap → Heap × Ref :=
  update fun c => { c with wrapped := err }

section Functions

variable (types : Types)

/-- `newError(code, messages...)`. -/
def newError (code : ResultCode) (messages : List String) (h : Heap) : Heap × Ref :=
  alloc h ⟨⟨joinMessages types code messages, none, code, false, 0⟩, none⟩

/-- `newCommonError(e, messages...)`: a new error, then `wrap(e)` on it. -/
def newCommonError (e : Option Val) (messages : List String) (h : Heap) : Heap × Ref :=
  let (h, ne) := newError types types.COMMON_ERROR messages h
  wrap e ne h

/-- `err()` on the constant at `k`: `v := ase.AerospikeError` copies the record, `v.wrap(nil)`
clears the copy's `wrapped`, and `&v` escapes to a new address. -/
def err (k : Nat) (h : Heap) : Heap × Ref := alloc h ⟨(cell h k).record, none⟩

/-- `chainErrors(outer, inner)`: `outer` itself when `inner` is `nil`; `inner` itself when
`outer` is `nil` and `inner` is an `Error`; a common error wrapping `inner` when `inner` is not;
otherwise a copy of `outer`'s record wrapping `inner`. -/
def chainErrors (outer : Option Ref) (inner : Option Val) (h : Heap) : Heap × Option Ref :=
  match outer, inner with
  | none, none => (h, none)
  | some outer, none => (h, some outer)
  | none, some (.ref e) => (h, some e)
  | none, some inner => (newCommonError types (some inner) [] h).map id some
  | some outer, some inner => (alloc h ⟨(cell h outer.addr).record, some inner⟩).map id some

/-- `errors.As(err, &ae)` on the heap: the address of the first `*AerospikeError` down the
chain. A `*constAerospikeError` is passed by as in `errorsAs`; each one costs a unit of `fuel`,
and a walk through more constants than the heap has records goes round a cycle, on which Go's
walk never returns. -/
def errorsAs (h : Heap) : Nat → Option Val → Option Nat
  | _, none => none
  | _, some (.ref (.aerospike a)) => some a
  | 0, some (.ref (.const _)) => none
  | fuel + 1, some (.ref (.const a)) => errorsAs h fuel (cell h a).wrapped
  | _, some .foreign => none
  | fuel, some (.wrapping w) => errorsAs h fuel (some w)
termination_by fuel v => (fuel, sizeOf v)

/-- `newNodeError(node, err)`: a copy of the record `errors.As` finds below `err`, the zero
record `new(AerospikeError)` points to when it finds none, attributed to `node` and wrapping
`err`. -/
def newNodeError (node : Option Node) (err : Option Ref) (h : Heap) : Heap × Option Ref :=
  match err with
  | none => (h, none)
  | some e =>
    let ae := ((errorsAs h h.length (some (.ref e))).map fun a => (cell h a).record).getD .zero
    (alloc h ⟨{ ae with Node := node }, some (.ref e)⟩).map id some

/-- The error a case of `newGrpcError` returns, built on the heap. -/
def grpcCaseError (e : Option Val) (messages : List String) (h : Heap) :
    GrpcCase → Heap × Option Ref
  | .nil => (h, none)
  | .errNetTimeout => (err netTimeoutAddr h).map id some
  | .errServerNotAvailable => (err serverNotAvailableAddr h).map id some
  | .errNetwork => (err networkAddr h).map id some
  | .newError code messages => (newError types code messages h).map id some
  | .grpcError =>
    (let (h, ne) := newError types types.GRPC_ERROR messages h; wrap e ne h).map id some

/-- `newGrpcError(e, messages...)`: an `Error` with code `GRPC_ERROR` is returned as it is. -/
def newGrpcError (e : Option Val) (grpc : GrpcClass) (messages : List String) (h : Heap) :
    Heap × Option Ref :=
  match e with
  | some (.ref ae) =>
    if (cell h ae.addr).record.ResultCode = types.GRPC_ERROR then (h, some ae)
    else grpcCaseError types e messages h (grpcCase types messages grpc)
  | _ => grpcCaseError types e messages h (grpcCase types messages grpc)

/-- `newGrpcStatusError(res)`: a new error, then `markInDoubt` on it. -/
def newGrpcStatusError (res : AerospikeResponsePayload) (h : Heap) : Heap × Ref :=
  if res.Status ≥ 0 then
    let (h, ne) := newError types res.Status [] h
    markInDoubt res.InDoubt ne h
  else if res.Status = -9 then
    let (h, ne) := newError types types.SERVER_ERROR ["Server ASYNC_QUEUE_FULL"] h
    markInDoubt res.InDoubt ne h
  else
    let (h, ne) := newError types (statusResultCode types res.Status) [] h
    markInDoubt res.InDoubt ne h

/-- `newInvalidNodeError(clusterSize, partition)`: `ErrClusterIsEmpty.err()`, or a new error on
which `wrap(nil)` is called. -/
def newInvalidNodeError (clusterSize : Int) (partition : String) (h : Heap) : Heap × Ref :=
  if clusterSize = 0 then err clusterIsEmptyAddr h
  else
    let (h, res) := newError types types.INVALID_NODE_ERROR
      ["Node not found for partition " ++ partition ++ " in partition table."] h
    wrap none res h

end Functions

/-! ### Clients of the package -/

/-- A context mutator with its arguments; the `error` that `wrap` is handed is a variable, or
`nil`. -/
inductive Mutator where
  | iter (i : Int)
  | setInDoubt (isRead commandWasSent : Bool)
  | setNode (node : Option Node)
  | markInDoubt (v : Bool)
  | markInDoubtIf (inDoubt : Bool)
  | wrap (err : Option Nat)
deriving DecidableEq, Repr

/-- A call a client makes. Its arguments of type `Error` or `error` are variables holding
results of earlier calls, by number, or `nil`; its result is bound to a new variable. -/
inductive Cmd where
  /-- The package constant at `k` of `constants`, passed as is. -/
  | const (k : Nat)
  /-- An error of another package wrapping a variable, or nothing. -/
  | foreign (wrapped : Option Nat)
  | err (k : Nat)
  | newError (code : ResultCode) (messages : List String)
  | chainErrors (outer inner : Option Nat)
  | newNodeError (node : Option Node) (err : Option Nat)
  | newGrpcError (e : Option Nat) (grpc : GrpcClass) (messages : List String)
  | newGrpcStatusError (res : AerospikeResponsePayload)
  | newInvalidNodeError (clusterSize : Int) (partition : String)
  /-- A mutator called on the `Error` in a variable. -/
  | mutate (m : Mutator) (x : Nat)
deriving DecidableEq, Repr

/-- The heap and the client's variables. -/
structure State where
  heap : Heap
  vars : List (Option Val)
deriving DecidableEq, Repr

namespace State

/-- An argument of type `error`; `none` when the variable does not exist. -/
def arg (s : State) : Option Nat → Option (Option Val)
  | none => some none
  | some i => s.vars[i]?

/-- An argument of type `Error`; `none` also when the variable holds a foreign error, which does
not have the type. -/
def errorArg (s : State) (i : Option Nat) : Option (Option Ref) :=
  match s.arg i with
  | some none => some none
  | some (some (.ref r)) => some (some r)
  | _ => none

/-- Binds the result of a call to a new variable. -/
def bind (s : State) (r : Heap × Option Ref) : State := ⟨r.1, s.vars ++ [r.2.map .ref]⟩

end State

/-- The function a mutator calls; `none` when `wrap`'s argument does not exist. -/
def Mutator.call (s : State) : Mutator → Option (Ref → Heap → Heap × Ref)
  | .iter i => some (Store.iter i)
  | .setInDoubt isRead commandWasSent => some (Store.setInDoubt isRead commandWasSent)
  | .setNode node => some (Store.setNode node)
  | .markInDoubt v => some (Store.markInDoubt v)
  | .markInDoubtIf inDoubt => some (Store.markInDoubtIf inDoubt)
  | .wrap err => (s.arg err).map Store.wrap

section Run

variable (types : Types)

/-- One call; `none` when an argument does not exist or has the wrong type, or when a method is
called on `nil`, which panics. -/
def step (s : State) : Cmd → Option State
  | .const k =>
    if k < (constants types).length then some ⟨s.heap, s.vars ++ [some (.ref (.const k))]⟩
    else none
  | .foreign w => (s.arg w).map fun v => ⟨s.heap, s.vars ++ [some (v.elim .foreign .wrapping)]⟩
  | .err k =>
    if k < (constants types).length then some (s.bind ((err k s.heap).map id some)) else none
  | .newError code messages => some (s.bind ((newError types code messages s.heap).map id some))
  | .chainErrors outer inner =>
    (s.errorArg outer).bind fun o => (s.arg inner).map fun i => s.bind (chainErrors types o i s.heap)
  | .newNodeError node e => (s.errorArg e).map fun e => s.bind (newNodeError node e s.heap)
  | .newGrpcError e grpc messages =>
    (s.arg e).map fun e => s.bind (newGrpcError types e grpc messages s.heap)
  | .newGrpcStatusError res => some (s.bind ((newGrpcStatusError types res s.heap).map id some))
  | .newInvalidNodeError clusterSize partition =>
    some (s.bind ((newInvalidNodeError types clusterSize partition s.heap).map id some))
  | .mutate m x =>
    match s.errorArg (some x) with
    | some (some r) => (m.call s).map fun f => s.bind ((f r s.heap).map id some)
    | _ => none

/-- A client's calls, one after the other. -/
def run (s : State) : List Cmd → Option State
  | [] => some s
  | c :: cs => (step types s c).bind fun s => run s cs

/-- The state the package starts in. -/
def init : State := ⟨constHeap types, []⟩

end Run

/-! ### What a call writes -/

theorem prefix_modify {p h : Heap} (hp : p <+: h) (f : Cell → Cell) {a : Nat}
    (ha : p.length ≤ a) :
  p <+: h.modify f a
  := by
  induction p generalizing h a with
  | nil => exact List.nil_prefix
  | cons x p ih =>
    obtain ⟨t, rfl⟩ := hp
    obtain ⟨a, rfl⟩ : ∃ a', a = a' + 1 := ⟨a - 1, by simp only [List.length_cons] at ha; omega⟩
    rw [List.cons_append, List.modify_succ_cons]
    exact List.cons_prefix_cons.mpr ⟨rfl, ih (List.prefix_append p t) (by simpa using ha)⟩

/-- A call that adds a record, returns it, and writes no other record. -/
def Fresh (h : Heap) (r : Heap × Ref) : Prop :=
  h <+: r.1 ∧ ∃ a, h.length ≤ a ∧ r.2 = .aerospike a

theorem fresh_alloc (h : Heap) (c : Cell) : Fresh h (alloc h c) :=
  ⟨List.prefix_append h [c], h.length, le_rfl, rfl⟩

/-- A mutator called on the record a call has just added. -/
theorem Fresh.update {h : Heap} {r : Heap × Ref} (hr : Fresh h r) (f : Cell → Cell) :
  Fresh h (update f r.2 r.1)
  := by
  obtain ⟨hp, a, ha, hx⟩ := hr
  rw [hx]
  exact ⟨prefix_modify hp f (by simpa [Ref.addr] using ha), a, ha, rfl⟩

section Fresh

variable (types : Types) (h : Heap)

theorem fresh_newError (code : ResultCode) (messages : List String) :
  Fresh h (newError types code messages h)
  := fresh_alloc h _

theorem fresh_err (k : Nat) : Fresh h (err k h) := fresh_alloc h _

theorem fresh_newCommonError (e : Option Val) (messages : List String) :
  Fresh h (newCommonError types e messages h)
  := (fresh_newError types h _ messages).update _

theorem fresh_newGrpcStatusError (res : AerospikeResponsePayload) :
  Fresh h (newGrpcStatusError types res h)
  := by
  unfold newGrpcStatusError
  split_ifs
  · exact (fresh_newError types h _ _).update _
  · exact (fresh_newError types h _ _).update _
  · exact (fresh_newError types h _ _).update _

theorem fresh_newInvalidNodeError (clusterSize : Int) (partition : String) :
  Fresh h (newInvalidNodeError types clusterSize partition h)
  := by
  unfold newInvalidNodeError
  split_ifs
  · exact fresh_err h 17
  · exact (fresh_newError types h _ _).update _

end Fresh

/-- The pointer an `error` is, when it is an `Error`. -/
def refs : Option Val → List Ref
  | some (.ref r) => [r]
  | _ => []

/-- A call that writes no record it did not add, and returns `nil`, a record it added, or one of
the pointers `passed` it was handed. -/
def Allocates (h : Heap) (passed : List Ref) (r : Heap × Option Ref) : Prop :=
  h <+: r.1 ∧ ∀ x ∈ r.2, (∃ a, h.length ≤ a ∧ x = .aerospike a) ∨ x ∈ passed

theorem Allocates.of_fresh {h : Heap} {r : Heap × Ref} (hr : Fresh h r) (passed : List Ref) :
  Allocates h passed (r.map id some)
  := by
  obtain ⟨hp, a, ha, hx⟩ := hr
  exact ⟨hp, fun x hx' => Or.inl ⟨a, ha, by cases hx'; exact hx⟩⟩

theorem allocates_self (h : Heap) (passed : List Ref) {x : Ref} (hx : x ∈ passed) :
  Allocates h passed (h, some x)
  := ⟨List.prefix_refl h, fun y hy => by cases hy; exact Or.inr hx⟩

section Allocates

variable (types : Types) (h : Heap)

/-- `chainErrors` returns `nil`, a new record, or one of its arguments itself. -/
theorem allocates_chainErrors (outer : Option Ref) (inner : Option Val) :
  Allocates h (outer.toList ++ refs inner) (chainErrors types outer inner h)
  := by
  match outer, inner with
  | none, none => exact ⟨List.prefix_refl h, fun _ hx => by cases hx⟩
  | some o, none => exact allocates_self h _ (by simp)
  | none, some (.ref e) => exact allocates_self h _ (by simp [refs])
  | none, some .foreign => exact .of_fresh (fresh_newCommonError types h _ _) _
  | none, some (.wrapping w) => exact .of_fresh (fresh_newCommonError types h _ _) _
  | some o, some i => exact .of_fresh (fresh_alloc h _) _

theorem allocates_newNodeError (node : Option Node) (e : Option Ref) :
  Allocates h [] (newNodeError node e h)
  := by
  cases e with
  | none => exact ⟨List.prefix_refl h, fun _ hx => by cases hx⟩
  | some e => exact .of_fresh (fresh_alloc h _) _

theorem allocates_grpcCaseError (e : Option Val) (messages : List String) (c : GrpcCase) :
  Allocates h [] (grpcCaseError types e messages h c)
  := by
  cases c with
  | nil => exact ⟨List.prefix_refl h, fun _ hx => by cases hx⟩
  | errNetTimeout => exact .of_fresh (fresh_err h 9) _
  | errServerNotAvailable => exact .of_fresh (fresh_err h 0) _
  | errNetwork => exact .of_fresh (fresh_err h 20) _
  | newError code messages => exact .of_fresh (fresh_newError types h code messages) _
  | grpcError => exact .of_fresh ((fresh_newError types h _ messages).update _) _

/-- `newGrpcError` returns `nil`, a new record, or its argument itself. -/
theorem allocates_newGrpcError (e : Option Val) (grpc : GrpcClass) (messages : List String) :
  Allocates h (refs e) (newGrpcError types e grpc messages h)
  := by
  have hcase := allocates_grpcCaseError types h e messages (grpcCase types messages grpc)
  have hcase' : Allocates h (refs e) _ := ⟨hcase.1, fun x hx => (hcase.2 x hx).imp_right nofun⟩
  unfold newGrpcError
  split
  · split_ifs
    · exact allocates_self h _ (by simp [refs])
    · exact hcase'
  · exact hcase'

end Allocates

/-! ### The constants over a run -/

/-- Whether a call is a mutator called on a constant passed as is. -/
def Cmd.mutatesConst (s : State) : Cmd → Bool
  | .mutate _ x =>
    match s.vars[x]? with
    | some (some (.ref (.const _))) => true
    | _ => false
  | _ => false

section Constants

variable (types : Types)

/-- A run none of whose calls is a mutator called on a constant passed as is. -/
def SafeRun (s : State) : List Cmd → Prop
  | [] => True
  | c :: cs => c.mutatesConst s = false ∧ ∀ s', step types s c = some s' → SafeRun s' cs

/-- The constants' records are as the package declared them, and every variable holding a
`*AerospikeError` points past them. -/
structure Good (s : State) : Prop where
  constants : constHeap types <+: s.heap
  vars : ∀ a, some (.ref (.aerospike a)) ∈ s.vars → (constHeap types).length ≤ a

theorem good_init : Good types (init types) := ⟨List.prefix_refl _, fun _ h => by cases h⟩

theorem mem_of_arg {s : State} {i : Option Nat} {v : Val} (h : s.arg i = some (some v)) :
  some v ∈ s.vars
  := by
  cases i with
  | none => cases h
  | some i => exact List.getElem?_mem h

theorem arg_of_errorArg {s : State} {i : Option Nat} {r : Ref}
    (h : s.errorArg i = some (some r)) :
  s.arg i = some (some (.ref r))
  := by
  unfold State.errorArg at h
  split at h
  · cases h
  · cases h
    assumption
  · cases h

theorem mem_refs {v : Option Val} {x : Ref} (h : x ∈ refs v) : v = some (.ref x) := by
  match v, h with
  | some (.ref r), h => rw [List.mem_singleton.mp h]

variable {types}

/-- Binding the result of a call that adds records, or returns pointers held in variables. -/
theorem Good.bind {s : State} (hs : Good types s) {passed : List Ref} {r : Heap × Option Ref}
    (hr : Allocates s.heap passed r) (hpassed : ∀ x ∈ passed, some (.ref x) ∈ s.vars) :
  Good types (s.bind r)
  := by
  obtain ⟨hp, hres⟩ := hr
  refine ⟨hs.constants.trans hp, fun a ha => ?_⟩
  rcases List.mem_append.mp ha with ha | ha
  · exact hs.vars a ha
  · obtain ⟨x, hx, hxa⟩ := Option.map_eq_some'.mp (List.mem_singleton.mp ha).symm
    cases hxa
    rcases hres _ hx with ⟨b, hb, hab⟩ | hpass
    · injection hab with hab
      subst hab
      exact hs.constants.length_le.trans hb
    · exact hs.vars a (hpassed _ hpass)

theorem Good.push {s : State} (hs : Good types s) {v : Val}
    (hv : ∀ a, v ≠ .ref (.aerospike a)) :
  Good types ⟨s.heap, s.vars ++ [some v]⟩
  := by
  refine ⟨hs.constants, fun a ha => ?_⟩
  rcases List.mem_append.mp ha with ha | ha
  · exact hs.vars a ha
  · cases List.mem_singleton.mp ha
    exact absurd rfl (hv a)

theorem Mutator.call_update {s : State} {m : Mutator} {f : Ref → Heap → Heap × Ref}
    (h : m.call s = some f) :
  ∃ g, f = update g
  := by
  cases m with
  | wrap err =>
    obtain ⟨v, -, rfl⟩ := Option.map_eq_some'.mp h
    exact ⟨_, rfl⟩
  | _ => cases h; exact ⟨_, rfl⟩

/-- A mutator called on a `*AerospikeError` past the constants writes no constant. -/
theorem Good.mutate {s : State} (hs : Good types s) {a : Nat}
    (ha : some (.ref (.aerospike a)) ∈ s.vars) (g : Cell → Cell) :
  Good types (s.bind ((update g (.aerospike a) s.heap).map id some))
  := by
  refine ⟨prefix_modify hs.constants g (hs.vars a ha), fun b hb => ?_⟩
  rcases List.mem_append.mp hb with hb | hb
  · exact hs.vars b hb
  · cases List.mem_singleton.mp hb
    exact hs.vars a ha

/-- One call keeps the constants, unless it is a mutator called on a constant passed as is. -/
theorem Good.step {s s' : State} (hs : Good types s) {c : Cmd} (hc : c.mutatesConst s = false)
    (h : step types s c = some s') :
  Good types s'
  := by
  have none_passed : ∀ x ∈ ([] : List Ref), some (Val.ref x) ∈ s.vars := fun _ hx => nomatch hx
  cases c with
  | const k =>
    simp only [Store.step] at h
    split_ifs at h
    cases h
    exact hs.push fun a => nofun
  | foreign w =>
    obtain ⟨v, -, rfl⟩ := Option.map_eq_some'.mp h
    exact hs.push fun a => by cases v <;> nofun
  | err k =>
    simp only [Store.step] at h
    split_ifs at h
    cases h
    exact hs.bind (.of_fresh (fresh_err _ k) []) none_passed
  | newError code messages =>
    cases h
    exact hs.bind (.of_fresh (fresh_newError types _ code messages) []) none_passed
  | chainErrors outer inner =>
    obtain ⟨o, ho, h⟩ := Option.bind_eq_some.mp h
    obtain ⟨i, hi, rfl⟩ := Option.map_eq_some'.mp h
    refine hs.bind (allocates_chainErrors types _ o i) fun x hx => ?_
    rcases List.mem_append.mp hx with hx | hx
    · exact mem_of_arg (arg_of_errorArg (ho.trans (congrArg some (Option.mem_toList.mp hx))))
    · exact mem_of_arg (hi.trans (congrArg some (mem_refs hx)))
  | newNodeError node e =>
    obtain ⟨e, -, rfl⟩ := Option.map_eq_some'.mp h
    exact hs.bind (allocates_newNodeError _ node e) none_passed
  | newGrpcError e grpc messages =>
    obtain ⟨v, hv, rfl⟩ := Option.map_eq_some'.mp h
    exact hs.bind (allocates_newGrpcError types _ v grpc messages) fun x hx =>
      mem_of_arg (hv.trans (congrArg some (mem_refs hx)))
  | newGrpcStatusError res =>
    cases h
    exact hs.bind (.of_fresh (fresh_newGrpcStatusError types _ res) []) none_passed
  | newInvalidNodeError clusterSize partition =>
    cases h
    exact hs.bind (.of_fresh (fresh_newInvalidNodeError types _ clusterSize partition) [])
      none_passed
  | mutate m x =>
    simp only [Store.step] at h
    split at h
    · rename_i r hr
      obtain ⟨f, hf, rfl⟩ := Option.map_eq_some'.mp h
      obtain ⟨g, rfl⟩ := Mutator.call_update hf
      have hx : s.vars[x]? = some (some (.ref r)) := arg_of_errorArg hr
      cases r with
      | aerospike a => exact hs.mutate (List.getElem?_mem hx) g
      | const k => simp [Cmd.mutatesConst, hx] at hc
    · cases h

/-- A run keeps the constants when none of its calls is a mutator called on a constant passed
as is. -/
theorem Good.run {s s' : State} (hs : Good types s) {cs : List Cmd} (hsafe : SafeRun types s cs)
    (h : run types s cs = some s') :
  Good types s'
  := by
  induction cs generalizing s with
  | nil => cases h; exact hs
  | cons c cs ih =>
    obtain ⟨s₁, h₁, h⟩ := Option.bind_eq_some.mp h
    exact ih (hs.step hsafe.1 h₁) (hsafe.2 s₁ h₁) h

/-- From the start, a run none of whose calls is a mutator called on a constant passed as is
leaves the record of every constant, `wrapped` included, as the package declared it. -/
theorem run_constants (cs : List Cmd) (hsafe : SafeRun types (init types) cs) {s : State}
    (h : run types (init types) cs = some s) :
  constHeap types <+: s.heap
  := ((good_init types).run hsafe h).constants

end Constants

/-- `ErrTimeout.err()`, then `iter(5)` on the copy: the run writes only the copy. -/
theorem run_constants_err_iter :
  SafeRun Types.distinct (init Types.distinct) [.err timeoutAddr, .mutate (.iter 5) 0] ∧
    run Types.distinct (init Types.distinct) [.err timeoutAddr, .mutate (.iter 5) 0] =
      some ⟨constHeap Types.distinct ++
          [⟨{ (ErrTimeout Types.distinct).AerospikeError with Iteration := 4 }, none⟩],
        [some (.ref (.aerospike 25)), some (.ref (.aerospike 25))]⟩ ∧
    constHeap Types.distinct <+: constHeap Types.distinct ++
      [⟨{ (ErrTimeout Types.distinct).AerospikeError with Iteration := 4 }, none⟩]
  := by
  have hsafe : SafeRun Types.distinct (init Types.distinct)
      [.err timeoutAddr, .mutate (.iter 5) 0] :=
    ⟨rfl, fun _ h => by cases h; exact ⟨rfl, fun _ _ => trivial⟩⟩
  have hrun : run Types.distinct (init Types.distinct) [.err timeoutAddr, .mutate (.iter 5) 0] =
      some ⟨constHeap Types.distinct ++
          [⟨{ (ErrTimeout Types.distinct).AerospikeError with Iteration := 4 }, none⟩],
        [some (.ref (.aerospike 25)), some (.ref (.aerospike 25))]⟩ := rfl
  exact ⟨hsafe, hrun, run_constants _ hsafe hrun⟩

/-- `chainErrors(nil, ErrTimeout)` returns `ErrTimeout` itself, and `iter(5)` on the result
writes the iteration `4` into the constant. -/
theorem chainErrors_ErrTimeout_iter (types : Types) :
  ∃ s, run types (init types)
      [.const 8, .chainErrors none (some 0), .mutate (.iter 5) 1] = some s ∧
    s.vars[1]? = some (some (.ref (.const 8))) ∧
    (cell (init types).heap 8).record = (ErrTimeout types).AerospikeError ∧
    (cell s.heap 8).record = { (ErrTimeout types).AerospikeError with Iteration := 4 } ∧
    (ErrTimeout types).AerospikeError.Iteration = 0
  := ⟨_, rfl, rfl, rfl, rfl, rfl⟩

end Store

end AerospikeClient
