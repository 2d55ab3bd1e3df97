/-!
# Alignment

How a text is set in a line that is wider, and how its further lines are set below the first.
-/

namespace WasiHost

namespace Alignment

/-- A number of blanks. -/
def blanks (count : Nat) : List Char :=
  List.replicate count ' '

/-- A text with blanks after it, up to a width. -/
def left (width : Nat) (text : String) : String :=
  text ++ String.ofList (blanks (width - text.length))

/-- A text with blanks before it, up to a width. -/
def right (width : Nat) (text : String) : String :=
  String.ofList (blanks (width - text.length)) ++ text

/-- A text with a number of blanks before every line but the first. -/
def hanging (indent : Nat) (text : String) : String :=
  String.ofList (text.toList.flatMap fun c => if c = '\n' then c :: blanks indent else [c])

end Alignment

end WasiHost
