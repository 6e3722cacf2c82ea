/-! # Modifiers

Access and property flags of a declaration, as the bits of a class file. -/
set_option autoImplicit false

namespace JavaFragments

structure Modifiers where
  bits : UInt32
deriving DecidableEq

namespace Modifiers

def none : Modifiers := ⟨0⟩

/-- The named flags in the order of their bits. -/
def flags : List (String × UInt32) :=
  [("PUBLIC", 0x1), ("PRIVATE", 0x2), ("PROTECTED", 0x4), ("STATIC", 0x8), ("FINAL", 0x10),
   ("SYNCHRONIZED", 0x20), ("VOLATILE", 0x40), ("TRANSIENT", 0x80), ("NATIVE", 0x100),
   ("INTERFACE", 0x200), ("ABSTRACT", 0x400), ("STRICT", 0x800), ("SYNTHETIC", 0x1000),
   ("ANNOTATION", 0x2000), ("ENUM", 0x4000)]

def finalFlag : UInt32 := 0x10

/-- The flags that have a keyword, in the order of the source. -/
def keywordFlags : List (String × UInt32) :=
  [("public", 0x1), ("protected", 0x4), ("private", 0x2), ("abstract", 0x400), ("static", 0x8),
   ("final", 0x10), ("transient", 0x80), ("volatile", 0x40), ("synchronized", 0x20),
   ("strictfp", 0x800)]

def contains (m : Modifiers) (flag : UInt32) : Bool :=
  m.bits &&& flag == flag

def keywords (m : Modifiers) : List String :=
  (keywordFlags.filter fun (_, flag) => m.contains flag).map Prod.fst

end Modifiers

end JavaFragments
