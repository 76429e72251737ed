import WhitespaceLang.Text.Basic

/-!
White space as it separates the numbers of an input: the space separators of Unicode and the
characters of bidirectional class WS, B or S.
-/

namespace WhitespaceLang
namespace CodePoint

def isBlank (c : CodePoint) : Bool :=
  (0x09 ≤ c.val && c.val ≤ 0x0D) || (0x1C ≤ c.val && c.val ≤ 0x20)
    || c.val == 0x85 || c.val == 0xA0 || c.val == 0x1680
    || (0x2000 ≤ c.val && c.val ≤ 0x200A) || c.val == 0x2028 || c.val == 0x2029
    || c.val == 0x202F || c.val == 0x205F || c.val == 0x3000

end CodePoint

namespace Text

/-- The maximal runs of characters that are not blank, in order. -/
def words : Text → List Text
  | [] => []
  | c :: rest =>
      if c.isBlank then words rest
      else (c :: rest.takeWhile (!·.isBlank)) :: words (rest.dropWhile (!·.isBlank))
termination_by t => t.length
decreasing_by
  · simp
  · have h := (List.dropWhile_sublist (!·.isBlank) (l := rest)).length_le
    simp only [List.length_cons]
    omega

end Text
end WhitespaceLang
