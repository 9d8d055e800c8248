/-
Poison bytes

A handle that is made safe has its payload filled twice: with one byte when it is made, and with
another when it ends. A reader who meets one of them in a dump knows which mistake was made.
-/

namespace CountedHeap.Poison

/-- The fill of a payload that nobody has written yet. -/
def fresh : UInt8 := 0xCB

/-- The fill of a payload whose handle has ended. -/
def freed : UInt8 := 0xDE

theorem fresh_ne_freed : fresh ≠ freed := by decide

end CountedHeap.Poison
