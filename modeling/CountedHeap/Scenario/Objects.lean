/-
The allocators and primitives of a scenario

The default heaps, external allocators and atomic primitives that a scenario
can name. The objects among them have addresses, by which the runtime tells
them apart.

* `HeapName.object`: the default heap under a name.
* `HeapName.functions?`: the triple behind a heap that C can install.
* `ExternalName.allocator`: the external allocator under a name.
* `IncDecName.primitive`, `CompareSwapName.primitive`: the primitives.
-/
import CountedHeap.Scenario.Functions

namespace CountedHeap.Scenario

/-! ### Allocator objects -/

/-- The default heaps that a scenario can name. -/
inductive HeapName where
  | system
  | libc
  | quarantine
  | failing
  | arena
  | hostA
  | hostA2
  | hostB
  | hostC
  | hostD
  | panicStr
  | panicString
  | panicAny
  deriving DecidableEq, Repr

namespace HeapName

def name : HeapName → String
  | system => "system"
  | libc => "libc"
  | quarantine => "quarantine"
  | failing => "failing"
  | arena => "arena"
  | hostA => "hostA"
  | hostA2 => "hostA2"
  | hostB => "hostB"
  | hostC => "hostC"
  | hostD => "hostD"
  | panicStr => "panic_str"
  | panicString => "panic_string"
  | panicAny => "panic_any"

def all : List HeapName :=
  [system, libc, quarantine, failing, arena, hostA, hostA2, hostB, hostC, hostD, panicStr,
    panicString, panicAny]

def ofName? : String → Option HeapName := named? name all

/-- The triple of functions behind a heap, if it is one that C can install. -/
def functions? : HeapName → Option HeapFunctions
  | libc => some .libc
  | hostA => some (triple .hostA .hostA .hostA)
  | hostA2 => some (triple .hostA .hostA .hostA)
  | hostB => some (triple .hostB .hostB .hostB)
  | hostC => some (triple .hostA .hostA .hostB)
  | hostD => some (triple .hostA .hostB .hostA)
  | _ => none
where
  triple (m r f : Tag) : HeapFunctions :=
    ⟨(Function.heap m .malloc).addr, (Function.heap r .realloc).addr, (Function.heap f .free).addr⟩

/-- Where the object of a heap lies. -/
def addr (n : HeapName) : Addr :=
  match n with
  | system => HeapObject.system.addr
  | n => staticBase + 0x1000 + 64 * UInt64.ofNat (all.idxOf n)

/-- The object of a heap. -/
def object (n : HeapName) : HeapObject :=
  match n with
  | system => .system
  | n =>
    match n.functions? with
    | some f => ⟨n.addr, .functions f⟩
    | none => ⟨n.addr, .custom⟩

/-- The heap whose object lies at an address. -/
def ofAddr? (a : Addr) : Option HeapName := all.find? fun n => n.addr = a

end HeapName

/-! ### External allocators -/

/-- The external allocators that a scenario can name. -/
inductive ExternalName where
  | sample
  /-- A copy of the sample allocator with another token. -/
  | sampleWrong
  /-- A copy whose token has the right value at another address. -/
  | sampleLookalike
  /-- A copy whose token is null. -/
  | sampleNull
  | extA
  | extB
  | extFail
  deriving DecidableEq, Repr

namespace ExternalName

def name : ExternalName → String
  | sample => "sample"
  | sampleWrong => "sample_wrong"
  | sampleLookalike => "sample_lookalike"
  | sampleNull => "sample_null"
  | extA => "extA"
  | extB => "extB"
  | extFail => "extFail"

def all : List ExternalName :=
  [sample, sampleWrong, sampleLookalike, sampleNull, extA, extB, extFail]

def ofName? : String → Option ExternalName := named? name all

/-- Where an allocator lies. -/
def addr (e : ExternalName) : Addr :=
  match e with
  | sample => ExternalAllocator.sampleAddr
  | e => staticBase + 0x2000 + 64 * UInt64.ofNat (all.idxOf e)

/-- The token of an allocator lies next to it, except for null. -/
def token (e : ExternalName) : Addr :=
  match e with
  | sample => ExternalAllocator.sampleToken
  | sampleNull => 0
  | e => e.addr + 32

/-- The functions and the token of an allocator. -/
def allocator (e : ExternalName) : ExternalAllocator :=
  match e with
  | sample | sampleWrong | sampleLookalike | sampleNull =>
    { ExternalAllocator.sample with token := e.token }
  | extA | extB | extFail =>
    ⟨(Function.external .malloc).addr, (Function.external .realloc).addr,
      (Function.external .free).addr, e.token⟩

/-- The allocator at an address. -/
def ofAddr? (a : Addr) : Option ExternalName := all.find? fun e => e.addr = a

/-- The allocator with a token. -/
def ofToken? (a : Addr) : Option ExternalName := all.find? fun e => e.token = a

/-- The tag under which the arena reports an allocator's requests. -/
def tag? : ExternalName → Option Tag
  | extA => some .extA
  | extB => some .extB
  | extFail => some .extFail
  | _ => none

end ExternalName

/-! ### Atomic primitives -/

/-- The pairs of counting functions that a scenario can name. -/
inductive IncDecName where
  | stub
  | host
  | plain
  | log
  | by2
  | ret0
  | never
  /-- Counts up to count down, and the other way round. -/
  | swap
  deriving DecidableEq, Repr

namespace IncDecName

def name : IncDecName → String
  | stub => "stub"
  | host => "host"
  | plain => "plain"
  | log => "log"
  | by2 => "by2"
  | ret0 => "ret0"
  | never => "never"
  | swap => "swap"

def all : List IncDecName := [stub, host, plain, log, by2, ret0, never, swap]

def ofName? : String → Option IncDecName := named? name all

/-- The functions behind a pair, if it is one that C can install. -/
def functions? : IncDecName → Option IncDecFunctions
  | stub | host => none
  | plain => some (pair .plainInc .plainDec)
  | log => some (pair .logInc .logDec)
  | by2 => some (pair .by2Inc .by2Dec)
  | ret0 => some (pair .plainInc .ret0Dec)
  | never => some (pair .plainInc .neverDec)
  | swap => some (pair .logDec .logInc)
where
  pair (i d : Counting) : IncDecFunctions :=
    ⟨(Function.counting i).addr, (Function.counting d).addr⟩

/-- The primitive. -/
def primitive (n : IncDecName) : IncDec :=
  match n.functions? with
  | some f => .functions f
  | none => if n = stub then .stub else .native

end IncDecName

/-- The compare-and-swap primitives that a scenario can name. -/
inductive CompareSwapName where
  | stub
  | host
  | function (s : Swap)
  deriving DecidableEq, Repr

namespace CompareSwapName

def name : CompareSwapName → String
  | stub => "stub"
  | host => "host"
  | function s => s.name

def all : List CompareSwapName := [stub, host] ++ Swap.all.map function

def ofName? : String → Option CompareSwapName := named? name all

/-- The function behind a primitive, if it is one that C can install. -/
def function? : CompareSwapName → Option Addr
  | stub | host => none
  | function s => some (Function.swap s).addr

/-- The primitive. -/
def primitive (n : CompareSwapName) : CompareSwap :=
  match n with
  | stub => .stub
  | host => .native
  | function s => .function (Function.swap s).addr

end CompareSwapName

end CountedHeap.Scenario
