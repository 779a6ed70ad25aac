import Conch.Text.Decimal

/-!
# Expansion of the process id

`$$` stands for the process id of the shell.  Occurrences are replaced from left to right
and do not overlap, so a run of dollar signs loses its signs in pairs and an odd one is left
over at the end.
-/

namespace Conch.Expansion

/-- The word with every `$$` replaced by `pid`. -/
def expandWord (pid : Text) : Word → Word
  | '$' :: '$' :: rest => pid ++ expandWord pid rest
  | c :: rest => c :: expandWord pid rest
  | [] => []

/-- The words of a line after expansion: the first word of the line stays as it is. -/
def expand (pid : UInt32) : List Word → List Word
  | [] => []
  | first :: rest => first :: rest.map (expandWord (Text.decimal pid.toNat))

end Conch.Expansion
