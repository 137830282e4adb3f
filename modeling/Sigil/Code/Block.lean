/-!
# Source text in blocks

Source text as lines and blocks between braces, whose bodies are indented by four blanks.
-/

namespace Sigil.Code

inductive Block where
  | line (text : String)
  /-- A line without anything, not even indentation. -/
  | blank
  /-- A head in front of the opening brace, a tail behind the closing one, and a body. -/
  | block (head tail : String) (body : List Block)
  deriving Inhabited

namespace Block

def indent (depth : Nat) : List Char := List.replicate (4 * depth) ' '

mutual

def charsAt (depth : Nat) : Block → List Char
  | line text => indent depth ++ text.toList ++ ['\n']
  | blank => ['\n']
  | block head tail body =>
    indent depth ++ head.toList ++ ['{', '\n'] ++ bodyCharsAt (depth + 1) body ++
      indent depth ++ '}' :: tail.toList ++ ['\n']

def bodyCharsAt (depth : Nat) : List Block → List Char
  | [] => []
  | b :: bs => charsAt depth b ++ bodyCharsAt depth bs

end

end Block

def layout (bs : List Block) : String := String.ofList (Block.bodyCharsAt 0 bs)

/-- Groups of blocks with a blank line between each two. -/
def spaced : List (List Block) → List Block
  | [] => []
  | [g] => g
  | g :: gs => g ++ .blank :: spaced gs

theorem bodyCharsAt_append (depth : Nat) (a b : List Block) :
    Block.bodyCharsAt depth (a ++ b) = Block.bodyCharsAt depth a ++ Block.bodyCharsAt depth b := by
  induction a with
  | nil => rfl
  | cons x a ih => simp [Block.bodyCharsAt, ih]

end Sigil.Code
