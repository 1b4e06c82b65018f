/-!
This module contains the kinds of nodes, and for every kind the roles that a node of it may fill.
-/

namespace MigrationLint

/--
The structural categories of the elements of a program.
-/
inductive NodeKind where
  | program
  | call
  | localAssign
  | instanceAssign
  | classVarAssign
  | globalAssign
  | constAssign
  | attributeAssign
  | multipleAssign
  | operatorAssign
  | localVar
  | instanceVar
  | classVar
  | globalVar
  | constant
  | scopedConstant
  | selfReference
  | nilLiteral
  | trueLiteral
  | falseLiteral
  | number
  | symbol
  | string
  | argumentList
  | hash
  | pair
  | array
  | block
  | parameters
  | body
  | classDefinition
  | moduleDefinition
  | methodDefinition
  | singletonDefinition
  | ifBranch
  | unlessBranch
  | whileLoop
  | untilLoop
  | caseBranch
  | returnJump
  | unknown
  deriving DecidableEq, Repr, Inhabited, Hashable

namespace NodeKind

def all : List NodeKind :=
  [.program, .call, .localAssign, .instanceAssign, .classVarAssign, .globalAssign, .constAssign,
   .attributeAssign, .multipleAssign, .operatorAssign, .localVar, .instanceVar, .classVar,
   .globalVar, .constant, .scopedConstant, .selfReference, .nilLiteral, .trueLiteral,
   .falseLiteral, .number, .symbol, .string, .argumentList, .hash, .pair, .array, .block,
   .parameters, .body, .classDefinition, .moduleDefinition, .methodDefinition,
   .singletonDefinition, .ifBranch, .unlessBranch, .whileLoop, .untilLoop, .caseBranch,
   .returnJump, .unknown]

def name : NodeKind → String
  | program => "program"
  | call => "call"
  | localAssign => "lasgn"
  | instanceAssign => "iasgn"
  | classVarAssign => "cvdecl"
  | globalAssign => "gasgn"
  | constAssign => "cdecl"
  | attributeAssign => "attrasgn"
  | multipleAssign => "masgn"
  | operatorAssign => "op_asgn"
  | localVar => "lvar"
  | instanceVar => "ivar"
  | classVar => "cvar"
  | globalVar => "gvar"
  | constant => "const"
  | scopedConstant => "colon2"
  | selfReference => "self"
  | nilLiteral => "nil"
  | trueLiteral => "true"
  | falseLiteral => "false"
  | number => "lit"
  | symbol => "sym"
  | string => "str"
  | argumentList => "arglist"
  | hash => "hash"
  | pair => "pair"
  | array => "array"
  | block => "iter"
  | parameters => "args"
  | body => "block"
  | classDefinition => "class"
  | moduleDefinition => "module"
  | methodDefinition => "defn"
  | singletonDefinition => "defs"
  | ifBranch => "if"
  | unlessBranch => "unless"
  | whileLoop => "while"
  | untilLoop => "until"
  | caseBranch => "case"
  | returnJump => "return"
  | unknown => "unknown"

def ofName? (name : String) : Option NodeKind :=
  all.find? (·.name == name)

def roles : NodeKind → List String
  | call => ["subject", "message", "arguments", "block"]
  | localAssign | instanceAssign | classVarAssign | globalAssign | constAssign | attributeAssign
  | multipleAssign => ["left_value", "right_value"]
  | operatorAssign => ["left_value", "right_value", "operator"]
  | classDefinition => ["name", "superclass", "body"]
  | moduleDefinition => ["name", "body"]
  | methodDefinition => ["name", "parameters", "body"]
  | singletonDefinition => ["subject", "name", "parameters", "body"]
  | ifBranch | unlessBranch => ["condition", "consequence", "alternative"]
  | whileLoop | untilLoop => ["condition", "body"]
  | pair => ["key", "value"]
  | scopedConstant => ["scope", "name"]
  | _ => []

end NodeKind

end MigrationLint
