import Sonarr.Lib.Unicode

/-! Regular expressions with leftmost-first matching: of several ways to match,
the one a backtracking search finds first. -/
namespace Sonarr.Lib

inductive Re
  | empty
  | set (p : Char → Bool)
  | seq (a b : Re)
  | alt (a b : Re)
  | star (greedy : Bool) (a : Re)
  | group (name : String) (a : Re)
  | textStart
  | textEnd
  | wordBoundary

/-- A place in the text: what stands before it, what is left, and the groups
matched so far, the latest first. -/
structure Cursor where
  prev : Option Char
  rest : List Char
  groups : List (String × List Char)

def isWord (c : Char) : Bool :=
  let n := c.toNat
  (48 ≤ n && n ≤ 57) || (65 ≤ n && n ≤ 90) || n == 95 || (97 ≤ n && n ≤ 122)

namespace Re

/-- Repeats `f` at most `fuel` times. An iteration that consumes nothing is not
repeated, so the length of the text is enough fuel. -/
def iterate (greedy : Bool) (f : Cursor → List Cursor) : Nat → Cursor → List Cursor
  | 0, c => [c]
  | fuel + 1, c =>
    let again := ((f c).filter (fun d => d.rest.length < c.rest.length)).flatMap
      (iterate greedy f fuel)
    if greedy then again ++ [c] else c :: again

/-- All ways to match from a place, in order of preference. -/
def run : Re → Cursor → List Cursor
  | .empty, c => [c]
  | .set p, c => match c.rest with
    | [] => []
    | x :: xs => if p x then [{ c with prev := some x, rest := xs }] else []
  | .seq a b, c => (a.run c).flatMap b.run
  | .alt a b, c => a.run c ++ b.run c
  | .star greedy a, c => iterate greedy a.run c.rest.length c
  | .group name a, c => (a.run c).map (fun d =>
      { d with groups := (name, c.rest.take (c.rest.length - d.rest.length)) :: d.groups })
  | .textStart, c => if c.prev.isNone then [c] else []
  | .textEnd, c => if c.rest.isEmpty then [c] else []
  | .wordBoundary, c => if c.prev.any isWord != c.rest.head?.any isWord then [c] else []

/-- The first match at the leftmost place that has one. -/
def search (r : Re) : Option Char → List Char → Option Cursor
  | prev, [] => (r.run ⟨prev, [], []⟩).head?
  | prev, x :: xs => match (r.run ⟨prev, x :: xs, []⟩).head? with
    | some c => some c
    | none => search r (some x) xs

/-- The groups of the leftmost match. -/
def findSubmatch (r : Re) (s : String) : Option (List (String × List Char)) :=
  (r.search none s.toList).map Cursor.groups

def matchString (r : Re) (s : String) : Bool := (r.search none s.toList).isSome

/-- The text of a group, empty when the match did not enter it. -/
def field (groups : List (String × List Char)) (name : String) : String :=
  String.ofList ((groups.lookup name).getD [])

def char (c : Char) : Re := .set (· == c)

/-- A character up to case. -/
def ichar (c : Char) : Re := .set (fun x => Unicode.fold x == Unicode.fold c)

def anyOf (s : String) : Re := .set (fun x => s.toList.contains x)

/-- Any character but a line feed. -/
def dot : Re := .set (· != '\n')

def digit : Re := .set (fun c => 48 ≤ c.toNat && c.toNat ≤ 57)

def alnum : Re := .set (fun c => isWord c && c != '_')

/-- The white space of `\s`. -/
def isBlank (c : Char) : Bool := " \t\n\x0c\r".toList.contains c

def blank : Re := .set isBlank

def seqs : List Re → Re
  | [] => .empty
  | [r] => r
  | r :: rs => .seq r (seqs rs)

def alts : List Re → Re
  | [] => .empty
  | [r] => r
  | r :: rs => .alt r (alts rs)

/-- A word up to case. -/
def word (s : String) : Re := seqs (s.toList.map ichar)

def opt (r : Re) : Re := .alt r .empty
def many (r : Re) : Re := .star true r
def many1 (r : Re) : Re := .seq r (.star true r)
def lazy1 (r : Re) : Re := .seq r (.star false r)

/-- `r{m,n}`, with `k = n - m` optional copies. -/
def upTo (r : Re) : Nat → Re
  | 0 => .empty
  | k + 1 => opt (.seq r (upTo r k))

def times (r : Re) : Nat → Re
  | 0 => .empty
  | m + 1 => .seq r (times r m)

def between (r : Re) (m n : Nat) : Re := .seq (times r m) (upTo r (n - m))

end Re
end Sonarr.Lib
