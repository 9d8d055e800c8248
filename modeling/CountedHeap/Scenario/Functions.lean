/-
The functions of a scenario's host

Destructors, finalizers, and the functions behind allocators and atomic
primitives, as far as a scenario can name them. Each function has an address,
by which the runtime knows it.

* `Function.addr`, `Function.ofAddr?`: the address of a function, and the
  function at an address.
* `Function.ofAddr?_addr`: a function is found again at its address.
* `Function.shownName?`: the name under which a function is shown.
-/
import CountedHeap.World

namespace CountedHeap.Scenario

/-- Finds the member of a list that has a name. -/
def named? {α : Type} (name : α → String) (all : List α) (s : String) : Option α :=
  all.find? fun a => name a == s

/-- The destructors of the host. -/
inductive Destructor where
  | log
  | log2
  /-- Reports the payload's bytes. -/
  | peek
  /-- Overwrites the payload. -/
  | scribble
  /-- Releases the handle in the info word. -/
  | relinfo
  /-- These three run a script. -/
  | s0
  | s1
  | s2
  /-- Counts calls and bytes. -/
  | counting
  deriving DecidableEq, Repr

namespace Destructor

def name : Destructor → String
  | log => "log"
  | log2 => "log2"
  | peek => "peek"
  | scribble => "scribble"
  | relinfo => "relinfo"
  | s0 => "s0"
  | s1 => "s1"
  | s2 => "s2"
  | counting => "counting"

def all : List Destructor := [log, log2, peek, scribble, relinfo, s0, s1, s2, counting]

def ofName? : String → Option Destructor := named? name all

end Destructor

/-- The finalizers of the host. -/
inductive Finalizer where
  | flog
  | flog2
  /-- Reports the first eight bytes. -/
  | fpeek
  /-- These three run a script. -/
  | f0
  | f1
  | f2
  /-- These two count calls. -/
  | countingElement
  | countingManaged
  deriving DecidableEq, Repr

namespace Finalizer

def name : Finalizer → String
  | flog => "flog"
  | flog2 => "flog2"
  | fpeek => "fpeek"
  | f0 => "f0"
  | f1 => "f1"
  | f2 => "f2"
  | countingElement => "counting_element"
  | countingManaged => "counting_managed"

def all : List Finalizer := [flog, flog2, fpeek, f0, f1, f2, countingElement, countingManaged]

def ofName? : String → Option Finalizer := named? name all

end Finalizer

/-- The three parts of an allocator. -/
inductive Role where
  | malloc
  | realloc
  | free
  deriving DecidableEq, Repr

def Role.name : Role → String
  | malloc => "malloc"
  | realloc => "realloc"
  | free => "free"

/-- The names under which the arena reports requests. -/
inductive Tag where
  | arena
  | hostA
  | hostB
  | extA
  | extB
  | extFail
  deriving DecidableEq, Repr

def Tag.name : Tag → String
  | arena => "arena"
  | hostA => "hostA"
  | hostB => "hostB"
  | extA => "extA"
  | extB => "extB"
  | extFail => "extFail"

/-- The counting functions of the host. -/
inductive Counting where
  | plainInc
  | plainDec
  /-- These two report what they do. -/
  | logInc
  | logDec
  | by2Inc
  | by2Dec
  | ret0Dec
  | neverDec
  deriving DecidableEq, Repr

/-- The compare-and-swap functions of the host. -/
inductive Swap where
  /-- Correct, and reports what it does. -/
  | log
  /-- Answers success with a negative number. -/
  | weird
  /-- Never stores. -/
  | deny
  /-- Always stores. -/
  | force
  /-- Never reports the old word. -/
  | noold
  deriving DecidableEq, Repr

namespace Swap

def name : Swap → String
  | log => "log"
  | weird => "weird"
  | deny => "deny"
  | force => "force"
  | noold => "noold"

def all : List Swap := [log, weird, deny, force, noold]

end Swap

/-- The functions of the host. -/
inductive Function where
  | destructor (d : Destructor)
  | finalizer (f : Finalizer)
  | heap (tag : Tag) (role : Role)
  | external (role : Role)
  | counting (c : Counting)
  | swap (s : Swap)
  deriving DecidableEq, Repr

namespace Function

/-- The functions in the order of their addresses. -/
def all : List Function :=
  Destructor.all.map destructor ++ Finalizer.all.map finalizer ++
    [heap .hostA .malloc, heap .hostA .realloc, heap .hostA .free,
      heap .hostB .malloc, heap .hostB .realloc, heap .hostB .free,
      external .malloc, external .realloc, external .free,
      counting .plainInc, counting .plainDec, counting .logInc, counting .logDec,
      counting .by2Inc, counting .by2Dec, counting .ret0Dec, counting .neverDec] ++
    Swap.all.map swap

/-- Where the code of the host starts. -/
def base : Addr := 0x5F07C9B3A6510000

/-- The address of a function. -/
def addr (f : Function) : Addr := base + 16 * UInt64.ofNat (all.idxOf f)

/-- The function at an address. -/
def ofAddr? (a : Addr) : Option Function :=
  all[((a - base) / 16).toNat]?.filter fun f => f.addr = a

/-- The name under which a function is shown, if it has one. -/
def shownName? : Function → Option String
  | destructor d => some d.name
  | finalizer f => some f.name
  | heap t r => some (t.name ++ "." ++ r.name)
  | counting .logInc => some "log.inc"
  | counting .logDec => some "log.dec"
  | swap s => some (s.name ++ ".cas")
  | _ => none

end Function

def Destructor.addr (d : Destructor) : Addr := (Function.destructor d).addr

def Finalizer.addr (f : Finalizer) : Addr := (Function.finalizer f).addr

/-- A function is found again at its address. -/
theorem Function.ofAddr?_addr : ∀ f ∈ Function.all, Function.ofAddr? f.addr = some f := by
  decide +kernel

end CountedHeap.Scenario
