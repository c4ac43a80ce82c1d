import RegisterMachine.Text.Blank

/-! Comments: a semicolon or two slashes begin one, and it lasts to the end of the text. -/
namespace RegisterMachine.Text

def Chars.beforeComment : Chars → Chars
  | [] => []
  | ';' :: _ => []
  | '/' :: '/' :: _ => []
  | c :: cs => c :: beforeComment cs

theorem Chars.beforeComment_isPrefixOf (cs : Chars) : beforeComment cs <+: cs := by
  fun_induction beforeComment cs with
  | case1 | case2 | case3 => exact List.nil_prefix
  | case4 c cs _ _ ih => exact (List.cons_prefix_cons).mpr ⟨rfl, ih⟩

def beforeComment (s : String) : String := String.ofList (Chars.beforeComment s.toList)

end RegisterMachine.Text
