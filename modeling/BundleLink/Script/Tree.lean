import BundleLink.Script.Text

/-!
The syntax tree of a module. Every node carries the byte range it was read from; literals also keep
the text they were written with, which is what the printer writes back. Imports and exports also
remember whether their source ended in a comma.
-/

set_option autoImplicit false

namespace BundleLink.Script

/-- A half-open range of byte offsets into the source text. -/
structure Span where
  lo : Nat
  hi : Nat
deriving DecidableEq, Repr, Inhabited

/-- A reference, a binding or a label: the places where a name can be renamed. -/
structure Ident where
  span : Span
  name : String
deriving DecidableEq, Repr, Inhabited

/-- A string literal. Without `raw` it is written from its value. -/
structure StringLit where
  span : Span
  value : Codes
  raw : Option String
deriving DecidableEq, Repr, Inhabited

/-- A literal other than a template. -/
inductive Literal where
  | string (s : StringLit)
  | number (span : Span) (raw : String)
  | bigInt (span : Span) (raw : String)
  | regExp (span : Span) (pattern flags : String)
  | boolean (span : Span) (value : Bool)
  | null (span : Span)
deriving DecidableEq, Repr, Inhabited

/-- One stretch of literal text in a template, as written. -/
structure Quasi where
  span : Span
  raw : String
deriving DecidableEq, Repr, Inhabited

inductive UnaryOp where
  | minus | plus | not | tilde | typeOf | void | delete
deriving DecidableEq, Repr, Inhabited

inductive UpdateOp where
  | increment | decrement
deriving DecidableEq, Repr, Inhabited

inductive BinaryOp where
  | eq | notEq | strictEq | strictNotEq
  | lt | le | gt | ge
  | shiftLeft | shiftRight | shiftRightZero
  | add | sub | mul | div | mod | exp
  | bitOr | bitXor | bitAnd
  | or | and | nullish
  | isIn | instanceOf
deriving DecidableEq, Repr, Inhabited

inductive AssignOp where
  | assign | add | sub | mul | div | mod
  | shiftLeft | shiftRight | shiftRightZero
  | bitOr | bitXor | bitAnd | exp
  | and | or | nullish
deriving DecidableEq, Repr, Inhabited

/-- When the target of an import is evaluated. -/
inductive ImportPhase where
  | evaluation | source | defer
deriving DecidableEq, Repr, Inhabited

inductive VarKind where
  | var | const | let
deriving DecidableEq, Repr, Inhabited

inductive MethodKind where
  | method | getter | setter
deriving DecidableEq, Repr, Inhabited

mutual

inductive Expr where
  | this (span : Span)
  | ident (id : Ident)
  | literal (l : Literal)
  | template (span : Span) (quasis : List Quasi) (exprs : List Expr)
  | tagged (span : Span) (tag : Expr) (quoted : Span) (quasis : List Quasi) (exprs : List Expr)
  | array (span : Span) (items : List Expr)
  | object (span : Span) (props : List Property)
  | function (span : Span) (name : Option Ident) (fn : Function)
  | arrow (span : Span) (isAsync : Bool) (params : List Pat) (body : Block)
  | arrowExpr (span : Span) (isAsync : Bool) (params : List Pat) (body : Expr)
  | classExpr (span : Span) (name : Option Ident) (cls : Class)
  | unary (span : Span) (op : UnaryOp) (arg : Expr)
  | update (span : Span) (op : UpdateOp) (first : Bool) (arg : Expr)
  | binary (span : Span) (op : BinaryOp) (left right : Expr)
  | assign (span : Span) (op : AssignOp) (target : Pat) (value : Expr)
  | cond (span : Span) (test yes no : Expr)
  | member (span : Span) (obj : Expr) (prop : Key)
  | superMember (span superSpan : Span) (prop : Key)
  | call (span : Span) (callee : Expr) (args : List Expr)
  | superCall (span superSpan : Span) (args : List Expr)
  | importCall (span importSpan : Span) (phase : ImportPhase) (args : List Expr)
  | new (span : Span) (callee : Expr) (args : List Expr)
  /-- A construction written without an argument list. -/
  | newBare (span : Span) (callee : Expr)
  | optMember (span : Span) (optional : Bool) (obj : Expr) (prop : Key)
  | optCall (span : Span) (optional : Bool) (callee : Expr) (args : List Expr)
  | seq (span : Span) (exprs : List Expr)
  | await (span : Span) (arg : Expr)
  | yield (span : Span) (delegate : Bool) (arg : Option Expr)
  | newTarget (span : Span)
  | importMeta (span : Span)
  | paren (span : Span) (inner : Expr)
  | privateName (span : Span) (name : String)
  /-- Spread items stand in argument lists and arrays only. -/
  | spread (dots : Span) (e : Expr)
  /-- An item left out of an array. -/
  | hole
  /-- Stands where an expression was expected and a diagnostic was recorded. -/
  | missing (span : Span)

/-- The name of a property, a class member or a selected member. Private names occur in classes
only. -/
inductive Key where
  | ident (span : Span) (name : String)
  | string (s : StringLit)
  | number (span : Span) (raw : String)
  | bigInt (span : Span) (raw : String)
  | computed (span : Span) (e : Expr)
  | privateName (span : Span) (name : String)

/-- An entry of an object literal. -/
inductive Property where
  | shorthand (id : Ident)
  | keyValue (key : Key) (value : Expr)
  | initialized (span : Span) (id : Ident) (value : Expr)
  | getter (span : Span) (key : Key) (body : Block)
  | setter (span : Span) (key : Key) (param : Pat) (body : Block)
  | method (span : Span) (key : Key) (fn : Function)
  | spread (dots : Span) (e : Expr)

/-- A binding pattern or the target of an assignment. -/
inductive Pat where
  | ident (id : Ident)
  | array (span : Span) (items : List Pat)
  | object (span : Span) (props : List PatProperty)
  | rest (span : Span) (arg : Pat)
  | default (span : Span) (left : Pat) (value : Expr)
  | expr (e : Expr)
  /-- An item left out of an array pattern. -/
  | hole
  | missing (span : Span)

inductive PatProperty where
  | keyValue (key : Key) (value : Pat)
  | shorthand (span : Span) (id : Ident) (value : Option Expr)
  | rest (span : Span) (arg : Pat)

structure Block where
  span : Span
  stmts : List Stmt

structure Function where
  span : Span
  isAsync : Bool
  isGenerator : Bool
  params : List Pat
  body : Block

structure Class where
  span : Span
  parent : Option Expr
  members : List Member

inductive Member where
  | constructor (span : Span) (params : List Pat) (body : Block)
  | method (span : Span) (isStatic : Bool) (kind : MethodKind) (key : Key) (fn : Function)
  | field (span : Span) (isStatic : Bool) (key : Key) (value : Option Expr)
  | staticBlock (span : Span) (body : Block)
  | empty (span : Span)

structure Declarator where
  span : Span
  name : Pat
  init : Option Expr

/-- What precedes the first separator in the head of a loop. -/
inductive LoopStart where
  | none
  | decl (span : Span) (kind : VarKind) (decls : List Declarator)
  | expr (e : Expr)
  | pat (p : Pat)

structure SwitchCase where
  span : Span
  test : Option Expr
  body : List Stmt

/-- Statements and declarations. -/
inductive Stmt where
  | expr (span : Span) (e : Expr)
  | block (b : Block)
  | empty (span : Span)
  | debugger (span : Span)
  | with (span : Span) (obj : Expr) (body : Stmt)
  | return (span : Span) (arg : Option Expr)
  | labeled (span : Span) (label : Ident) (body : Stmt)
  | break (span : Span) (label : Option Ident)
  | continue (span : Span) (label : Option Ident)
  | ifThen (span : Span) (test : Expr) (yes : Stmt)
  | ifElse (span : Span) (test : Expr) (yes no : Stmt)
  | switch (span : Span) (subject : Expr) (cases : List SwitchCase)
  | throw (span : Span) (arg : Expr)
  | tryCatch (span : Span) (body : Block) (caught : Span) (param : Option Pat)
      (handler finalizer : Option Block)
  | whileLoop (span : Span) (test : Expr) (body : Stmt)
  | doWhile (span : Span) (test : Expr) (body : Stmt)
  | forLoop (span : Span) (start : LoopStart) (test step : Option Expr) (body : Stmt)
  | forIn (span : Span) (left : LoopStart) (right : Expr) (body : Stmt)
  | forOf (span : Span) (isAwait : Bool) (left : LoopStart) (right : Expr) (body : Stmt)
  | function (span : Span) (name : Ident) (fn : Function)
  | classDecl (span : Span) (name : Ident) (cls : Class)
  | var (span : Span) (kind : VarKind) (decls : List Declarator)

end

instance : Inhabited Expr := ⟨.missing default⟩
instance : Inhabited Pat := ⟨.missing default⟩
instance : Inhabited Stmt := ⟨.empty default⟩
instance : Inhabited Block := ⟨⟨default, []⟩⟩

/-- A name by which a module exports or imports a binding. -/
inductive ExternalName where
  | ident (id : Ident)
  | string (s : StringLit)
deriving DecidableEq, Repr, Inhabited

inductive ImportSpecifier where
  | default (span : Span) (binding : Ident)
  | namespace (span : Span) (binding : Ident)
  | named (span : Span) (binding : Ident) (imported : Option ExternalName)
deriving DecidableEq, Repr, Inhabited

inductive ExportSpecifier where
  | namespace (span : Span) (name : ExternalName)
  | named (span : Span) (orig : ExternalName) (exported : Option ExternalName)
deriving DecidableEq, Repr, Inhabited

/-- The attributes of an import, written as an object literal. -/
structure Attributes where
  span : Span
  props : List Property

structure ImportDecl where
  span : Span
  phase : ImportPhase
  comma : Bool
  specifiers : List ImportSpecifier
  source : StringLit
  attributes : Option Attributes

structure ExportNamed where
  span : Span
  comma : Bool
  specifiers : List ExportSpecifier
  source : Option StringLit
  attributes : Option Attributes

structure ExportAll where
  span : Span
  source : StringLit
  attributes : Option Attributes

/-- The value of a default export that is a declaration. -/
inductive DefaultDecl where
  | function (span : Span) (name : Option Ident) (fn : Function)
  | classDecl (span : Span) (name : Option Ident) (cls : Class)

/-- An item of a module body. The declaration of `exportDecl` is a function, class or variable
statement. -/
inductive ModuleItem where
  | importDecl (d : ImportDecl)
  | exportNamed (d : ExportNamed)
  | exportAll (d : ExportAll)
  | exportDecl (span : Span) (d : Stmt)
  | exportDefaultDecl (span : Span) (d : DefaultDecl)
  | exportDefaultExpr (span : Span) (e : Expr)
  | stmt (s : Stmt)

structure Module where
  span : Span
  shebang : Option String
  items : List ModuleItem

end BundleLink.Script
