import MigrationLint.Text.Wide

/-!
This module contains the categories of files. A path belongs to a category if, from the start of one
of its components on, it is a head of the category, a gap without line breaks, and a tail of the
category, with at most one line break after it.
-/

namespace MigrationLint

namespace Path

/--
Write a path with slashes only.
-/
def normalize (path : List Char) : List Char :=
  path.map fun c => if c = '\\' then '/' else c

/--
What the paths of a category look like. Without a gap the tail follows the head at once.
-/
structure Pattern where
  category : String
  heads : List String
  hasGap : Bool
  tails : List String
  deriving DecidableEq, Repr

def patterns : List Pattern :=
  [⟨"migration", ["db/migrate/"], true, [".rb"]⟩,
   ⟨"model", ["models/"], true, [".rb"]⟩,
   ⟨"mailer", ["models/", "mailers/"], true, ["mailer.rb"]⟩,
   ⟨"controller", ["controllers/"], true, [".rb"]⟩,
   ⟨"helper", ["helpers/"], true, [".rb"]⟩,
   ⟨"view", ["views/"], true, [".erb", ".haml", ".slim", ".builder", ".rxml"]⟩,
   ⟨"schema", ["db/schema"], false, [".rb"]⟩,
   ⟨"routes", ["config/routes"], true, [".rb"]⟩,
   ⟨"seed", ["db/seeds"], false, [".rb"]⟩]

def afterSlashes : List Char → List (List Char)
  | [] => []
  | c :: cs => if c = '/' then cs :: afterSlashes cs else afterSlashes cs

def dropHead? (head : List Char) (cs : List Char) : Option (List Char) :=
  if head.isPrefixOf cs then some (cs.drop head.length) else none

def dropTail? (tail : List Char) (cs : List Char) : Option (List Char) :=
  if tail.isSuffixOf cs then some (cs.take (cs.length - tail.length)) else none

def Pattern.isGap (p : Pattern) (cs : List Char) : Bool :=
  if p.hasGap then '\n' ∉ cs else cs.isEmpty

def Pattern.closes (p : Pattern) (cs : List Char) : Bool :=
  p.tails.any fun tail => (dropTail? tail.toList cs).any p.isGap

def Pattern.continues (p : Pattern) (cs : List Char) : Bool :=
  p.closes cs || (dropTail? ['\n'] cs).any p.closes

def Pattern.matches (p : Pattern) (path : List Char) : Bool :=
  (path :: afterSlashes path).any fun component =>
    p.heads.any fun head => (dropHead? head.toList component).any p.continues

def classify (path : WideText) : List String :=
  (patterns.filter (·.matches (normalize path.chars))).map (·.category)

/--
Check whether a path has one of the given categories; no categories stand for all paths.
-/
def matchesAny (path : WideText) (categories : List String) : Bool :=
  categories.isEmpty || (classify path).any (· ∈ categories)

end Path

end MigrationLint
