import Mathlib.Data.List.Basic

/-!
The strings that the database takes as keys and as paths.
-/

namespace SimpleSNS.FValidation

def kInvalidPathCharacters : List Char := ['[', ']', '.', '#', '$']

def kInvalidKeyCharacters : List Char := ['[', ']', '.', '#', '$', '/']

def isValidPathString (pathString : String) : Bool :=
  !pathString.toList.isEmpty && pathString.toList.all (!kInvalidPathCharacters.contains ·)

def isValidKey (key : String) : Bool := !key.toList.isEmpty && key.toList.all (!kInvalidKeyCharacters.contains ·)

end SimpleSNS.FValidation
