/-! # Internal names of classes

An internal name such as `java/util/Map$Entry` separates packages by slashes and member classes by
dollar signs. The package is what stands before the last slash, the simple name what stands after
the last separator of either kind, and the dotted name has a dot for every separator. -/
set_option autoImplicit false

namespace JavaFragments.InternalName

def isSeparator (c : Char) : Bool :=
  c = '/' || c = '$'

/-- What stands before the last slash, and nothing where there is no slash. -/
def beforeLastSlash (cs : List Char) : List Char :=
  (cs.reverse.dropWhile (· ≠ '/')).tail.reverse

def afterLastSeparator (cs : List Char) : List Char :=
  (cs.reverse.takeWhile fun c => !isSeparator c).reverse

def dotted (cs : List Char) : List Char :=
  cs.map fun c => if isSeparator c then '.' else c

def package (name : String) : String :=
  String.ofList (beforeLastSlash name.toList)

def simpleName (name : String) : String :=
  String.ofList (afterLastSeparator name.toList)

def qualifiedName (name : String) : String :=
  String.ofList (dotted name.toList)

end JavaFragments.InternalName
