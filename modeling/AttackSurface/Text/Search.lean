/-! Searching texts for runs, parts and delimiters, always from the left. -/
namespace AttackSurface.Text

/-- What follows `start` in `text`, if `text` begins with it. -/
def after? : (start text : List Char) → Option (List Char)
  | [], text => some text
  | _ :: _, [] => none
  | a :: start, c :: text => if a = c then after? start text else none

/-- What follows the longest run of `p`-characters at the start, if that run is not empty. -/
def afterRun? (p : Char → Bool) (text : List Char) : Option (List Char) :=
  if text.head?.any p then some (text.dropWhile p) else none

def occurs (part : List Char) : List Char → Bool
  | [] => part.isEmpty
  | c :: rest => (after? part (c :: rest)).isSome || occurs part rest

def splitAtFirst (mark : Char) : List Char → Option (List Char × List Char)
  | [] => none
  | c :: rest =>
    if c = mark then some ([], rest)
    else (splitAtFirst mark rest).map fun (before, tail) => (c :: before, tail)

def beforeLast? (mark : Char) : List Char → Option (List Char)
  | [] => none
  | c :: rest =>
    match beforeLast? mark rest with
    | some before => some (c :: before)
    | none => if c = mark then some [] else none

/-- The part after the last `mark`, or the whole text without one. -/
def afterLast (mark : Char) : List Char → List Char
  | [] => []
  | c :: rest => if rest.contains mark then afterLast mark rest else if c = mark then rest else c :: rest

/-- The first answer of `find` on the text and on its ever shorter ends. -/
def firstMatch {α : Type} (find : List Char → Option α) : List Char → Option α
  | [] => find []
  | c :: rest => (find (c :: rest)).or (firstMatch find rest)

/-- The longest run of `inside`-characters at the start that is followed by something `ends`
accepts. -/
def longestBefore (inside : Char → Bool) (ends : List Char → Bool) : List Char → Option (List Char)
  | [] => if ends [] then some [] else none
  | c :: rest =>
    match if inside c then longestBefore inside ends rest else none with
    | some run => some (c :: run)
    | none => if ends (c :: rest) then some [] else none

/-- The text without its first `n` bytes in UTF-8, if a character starts there. -/
def dropBytes : (n : Nat) → List Char → Option (List Char)
  | 0, text => some text
  | _ + 1, [] => none
  | n + 1, c :: rest => if c.utf8Size ≤ n + 1 then dropBytes (n + 1 - c.utf8Size) rest else none

def byteLength (text : List Char) : Nat := text.foldr (fun c bytes => c.utf8Size + bytes) 0

/-- The part of a text from one byte to another, if characters start at both. -/
def bytesBetween (start stop : Nat) (text : List Char) : Option (List Char) := do
  let fromStart ← dropBytes start text
  let fromStop ← dropBytes stop text
  return fromStart.take (fromStart.length - fromStop.length)

end AttackSurface.Text
