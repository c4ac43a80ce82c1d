/-! Columns: text filled up with spaces to a width in code points. A text that is wider than
its column is left as it is. -/
namespace RegisterMachine.Text

def spaces (n : Nat) : String := String.ofList (List.replicate n ' ')

def alignLeft (width : Nat) (s : String) : String := s ++ spaces (width - s.length)

def alignRight (width : Nat) (s : String) : String := spaces (width - s.length) ++ s

end RegisterMachine.Text
