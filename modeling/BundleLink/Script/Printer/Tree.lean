import BundleLink.Script.Extent
import BundleLink.Script.Token
import BundleLink.Script.Printer.Layout
import BundleLink.Script.Printer.StringText

/-!
The pieces of expressions, patterns and statements. Literals and parentheses are written as they
were read. Object and array literals take a line for each item; patterns, parameters and arguments
stay on one line.
-/

set_option autoImplicit false

namespace BundleLink.Script

/-- An expression or pattern with the comments that trail it. -/
def ended (span : Span) (ps : List Piece) : List Piece :=
  ps ++ [.trailing span.hi true]

/-- A statement on a line of its own; a block gives up the line and the comments that trail it. -/
def settled (s : Stmt) (ps : List Piece) : List Piece :=
  match s with
  | .block _ => ps
  | _ => ps ++ [.trailing s.span.hi true, .line]

/-- Items with commas between them; `last` follows the last item. -/
def listed (gap last : List Piece) : List (List Piece) → List Piece
  | [] => []
  | [ps] => ps ++ last
  | ps :: items => ps ++ [.text ","] ++ gap ++ listed gap last items

/-- Items on one line. -/
def inlineList : List (List Piece) → List Piece :=
  listed [.text " "] []

/-- Items on one line with a last comma. -/
def inlineListComma (comma : Bool) : List (List Piece) → List Piece :=
  listed [.text " "] (if comma then [.text ", "] else [])

/-- Items on indented lines. -/
def linedList (last : List Piece) (items : List (List Piece)) : List Piece :=
  [.line, .indent] ++ listed [.line] last items ++ [.dedent, .line]

/-- An item of a list on one line, with the comments that trail it right behind it. -/
def item (hi : Nat) (ps : List Piece) : List Piece :=
  ps ++ [.trailing hi false]

/-- Whether a piece writes the comments that trail `pos`. -/
def Piece.trails (pos : Nat) : Piece → Bool
  | .trailing p _ => p = pos
  | _ => false

/-- An expression as a statement. Where nothing follows it in the source, the comments that trail it
trail the statement and come after the semicolon. -/
def statementPieces (span : Span) (exprHi : Nat) (ps : List Piece) : List Piece :=
  if exprHi = span.hi then ps.filter (!·.trails span.hi) else ps

/-- Parts on indented lines. -/
def linedParts (parts : List (List Piece)) : List Piece :=
  if parts.isEmpty then [.line]
  else [.line, .indent] ++ parts.flatMap (· ++ [.line]) ++ [.dedent, .line]

def Ident.pieces (id : Ident) : List Piece :=
  [.leading id.span.lo, .text id.name]

def StringLit.pieces (s : StringLit) : List Piece :=
  [.leading s.span.lo, .text s.text]

def Literal.pieces (l : Literal) : List Piece :=
  .leading l.span.lo ::
    match l with
    | string s => s.pieces
    | number _ raw => [.text raw]
    | bigInt _ raw => [.text raw]
    | regExp _ pattern flags => [.text ("/" ++ pattern ++ "/" ++ flags)]
    | boolean _ value => [.text (if value then "true" else "false")]
    | null _ => [.text "null"]

/-- Whether a dot after a number would be read as its decimal point. -/
def takesDot (raw : String) : Bool :=
  let ds := raw.toList.filter (· ≠ '_')
  ds.all Char.isDigit && !(2 ≤ ds.length && ds.head? = some '0')

def isNegation : UnaryOp → UpdateOp → Bool
  | .plus, .increment | .minus, .decrement => true
  | _, _ => false

/-- Whether an operator written before `arg` would run together with it. -/
def needsGap (op : UnaryOp) : Expr → Bool
  | .update _ inner true _ => isNegation op inner
  | .unary _ inner _ => (op = .plus || op = .minus) && inner = op
  | _ => false

def UnaryOp.isWord : UnaryOp → Bool
  | typeOf | void | delete => true
  | _ => false

def isNumber : Expr → Bool
  | .literal (.number ..) => true
  | _ => false

/-- The text between a base and the name of its member. -/
def dotted (base : Expr) (prop : Key) : List Piece :=
  match prop with
  | .computed .. => []
  | _ =>
    let lo := prop.span.lo
    let second : List Piece := [.leading (lo - 1), .text "."]
    match base with
    | .literal (.number _ raw) =>
      if takesDot raw then [.leading (lo - 2), .text "."] ++ second else second
    | _ => second

def isComputed : Key → Bool
  | .computed .. => true
  | _ => false

def ImportPhase.text : ImportPhase → String
  | evaluation => ""
  | source => "source"
  | defer => "defer"

def VarKind.text : VarKind → String
  | var => "var"
  | const => "const"
  | .let => "let"

/-- The words and mark that precede the name of a method. -/
def methodMarks (isAsync isGenerator : Bool) : List Piece :=
  (if isAsync then [.text "async "] else []) ++ (if isGenerator then [.text "*"] else [])

/-- The keyword of a function, with its mark. -/
def functionWord (isAsync isGenerator : Bool) : List Piece :=
  (if isAsync then [.text "async "] else []) ++
    [.text (if isGenerator then "function*" else "function")]

def optionalName : Option Ident → List Piece
  | none => []
  | some id => .text " " :: id.pieces

/-- The comments before the name of a method come before its marks, unless the name is private. -/
def earlyKey : Key → List Piece
  | .privateName .. => []
  | key => [.leading key.span.lo]

/-- A block around its statements. -/
def blockPieces (span : Span) (stmts : List (List Piece)) : List Piece :=
  [.leading span.lo, .text "\x7b"] ++
    (if stmts.isEmpty then [.lineIfLed (span.hi - 1)] else linedParts stmts) ++
    [.leading (span.hi - 1), .text "\x7d"]

/-- An object literal around its entries. -/
def objectPieces (span : Span) (props : List (List Piece)) : List Piece :=
  [.leading span.lo, .text "\x7b"] ++
    (if props.isEmpty then [.lineIfLed (span.hi - 1)] else linedList [] props) ++
    [.text "\x7d"]

/-- A text in which every line ends in a line feed alone. -/
def lineFed : List Char → List Char
  | '\r' :: '\n' :: cs => '\n' :: lineFed cs
  | '\r' :: cs => '\n' :: lineFed cs
  | c :: cs => c :: lineFed cs
  | [] => []

def Quasi.lineFed (q : Quasi) : String :=
  String.ofList (BundleLink.Script.lineFed q.raw.toList)

/-- A template around its substitutions; a tag sees the line ends of the source. -/
def templatePieces (tagged : Bool) (span : Span) (quasis : List Quasi)
    (exprs : List (List Piece)) : List Piece :=
  [.leading span.lo, .text "`"] ++ go quasis exprs ++ [.text "`"]
where
  stretch (q : Quasi) : Piece := .text (if tagged then q.raw else q.lineFed)
  go : List Quasi → List (List Piece) → List Piece
    | q :: qs, e :: es => [stretch q, .text "$\x7b"] ++ e ++ [.text "\x7d"] ++ go qs es
    | qs, _ => qs.map stretch

def inParens (ps : List Piece) : List Piece :=
  [.text "("] ++ ps ++ [.text ")"]

mutual

def Expr.pieces : Expr → List Piece
  | .this span => [.leading span.lo, .text "this"]
  | .ident id => id.pieces
  | .literal l => l.pieces
  | .template span quasis exprs => templatePieces false span quasis (exprParts exprs)
  | .tagged span tag quoted quasis exprs =>
    [.leading span.lo] ++ ended tag.span tag.pieces ++
      templatePieces true quoted quasis (exprParts exprs)
  | .array span items =>
    let last : List Piece :=
      match items.getLast? with
      | some .hole => [.text ", "]
      | _ => []
    [.leading span.lo, .text "["] ++
      (if items.isEmpty then [] else linedList last (exprItems items)) ++ [.text "]"]
  | .object span props => objectPieces span (propertyItems props)
  | .function span name fn =>
    [.leading span.lo] ++ functionWord fn.isAsync fn.isGenerator ++ optionalName name ++ fn.pieces
  | .arrow span isAsync params body =>
    [.leading span.lo] ++ methodMarks isAsync false ++ inParens (inlineList (patItems params)) ++
      [.text "=>"] ++ body.pieces
  | .arrowExpr span isAsync params body =>
    [.leading span.lo] ++ methodMarks isAsync false ++ inParens (inlineList (patItems params)) ++
      [.text "=>", .indent] ++ ended body.span body.pieces ++ [.dedent]
  | .classExpr span name cls =>
    [.leading span.lo, .text "class"] ++ optionalName name ++ cls.pieces
  | .unary span op arg =>
    [.leading span.lo, .text op.text] ++
      (if op.isWord || needsGap op arg then [.text " "] else []) ++ ended arg.span arg.pieces
  | .update span op first arg =>
    [.leading span.lo] ++ (if first then [.text op.text] else []) ++ ended arg.span arg.pieces ++
      (if first then [] else [.text op.text])
  | .binary span op left right =>
    [.leading span.lo] ++ ended left.span left.pieces ++ [.text " ", .text op.text, .text " "] ++
      ended right.span right.pieces
  | .assign span op target value =>
    [.leading span.lo] ++ target.pieces ++ [.text " ", .text op.text, .text " "] ++
      ended value.span value.pieces
  | .cond span test yes no =>
    [.leading span.lo] ++ ended test.span test.pieces ++ [.text " ? "] ++
      ended yes.span yes.pieces ++ [.text " : "] ++ ended no.span no.pieces
  | .member span obj prop =>
    [.leading span.lo] ++ (if isNumber obj then obj.pieces else ended obj.span obj.pieces) ++
      dotted obj prop ++ prop.pieces
  | .superMember span superSpan prop =>
    [.leading span.lo, .leading superSpan.lo, .text "super"] ++
      (if isComputed prop then [] else [.leading (prop.span.lo - 1), .text "."]) ++ prop.pieces
  | .call span callee args =>
    [.leading span.lo] ++ ended callee.span callee.pieces ++ inParens (inlineList (exprItems args))
  | .superCall span superSpan args =>
    [.leading span.lo, .leading superSpan.lo, .text "super"] ++
      inParens (inlineList (exprItems args))
  | .importCall span importSpan phase args =>
    [.leading span.lo, .leading importSpan.lo,
      .text (if phase = .evaluation then "import" else "import." ++ phase.text)] ++
      inParens (inlineList (exprItems args))
  | .new span callee args =>
    [.leading span.lo, .text "new "] ++ ended callee.span callee.pieces ++
      inParens (inlineList (exprItems args))
  | .newBare span callee => [.leading span.lo, .text "new "] ++ ended callee.span callee.pieces
  | .optMember span optional obj prop =>
    [.leading span.lo] ++ ended obj.span obj.pieces ++
      (if optional then [.text "?."] else if isComputed prop then [] else [.text "."]) ++
      prop.pieces
  | .optCall span optional callee args =>
    [.leading span.lo] ++ ended callee.span callee.pieces ++
      (if optional then [.text "?."] else []) ++ inParens (inlineList (exprItems args))
  | .seq span exprs => [.leading span.lo] ++ inlineList (exprItems exprs)
  | .await span arg => [.leading span.lo, .text "await "] ++ ended arg.span arg.pieces
  | .yield span delegate arg =>
    [.leading span.lo, .text (if delegate then "yield*" else "yield")] ++
      match arg with
      | none => []
      | some e =>
        [.ifBroken e.span.lo "(" " "] ++ ended e.span e.pieces ++ [.ifBroken e.span.lo ")" ""]
  | .newTarget span => [.leading span.lo, .text "new.target"]
  | .importMeta span => [.leading span.lo, .text "import.meta"]
  | .paren span inner => [.leading span.lo] ++ inParens (ended inner.span inner.pieces)
  | .privateName span name => [.leading span.lo, .text ("#" ++ name)]
  | .spread dots e => [.leading dots.lo, .text "..."] ++ ended e.span e.pieces
  | .hole => []
  | .missing _ => []

def exprItems : List Expr → List (List Piece)
  | [] => []
  | e :: es => item e.span.hi (ended e.span e.pieces) :: exprItems es

def exprParts : List Expr → List (List Piece)
  | [] => []
  | e :: es => ended e.span e.pieces :: exprParts es

def Key.pieces : Key → List Piece
  | .ident span name => [.leading span.lo, .text name]
  | .string s => s.pieces
  | .number span raw => [.leading span.lo, .text raw]
  | .bigInt span raw => [.leading span.lo, .text raw]
  | .computed _ e => [.text "["] ++ ended e.span e.pieces ++ [.text "]"]
  | .privateName span name => [.leading span.lo, .text ("#" ++ name)]

def Property.pieces : Property → List Piece
  | .shorthand id => id.pieces
  | .keyValue key value =>
    [.leading key.span.lo] ++ key.pieces ++ [.text ": "] ++ ended value.span value.pieces
  | .initialized _ id value => id.pieces ++ [.text " = "] ++ ended value.span value.pieces
  | .getter span key body =>
    [.leading span.lo, .text "get "] ++ key.pieces ++ [.text " () "] ++ body.pieces
  | .setter span key param body =>
    [.leading span.lo, .text "set "] ++ key.pieces ++ [.text " "] ++
      inParens (ended param.span param.pieces) ++ body.pieces
  | .method span key fn =>
    [.leading span.lo] ++ methodMarks fn.isAsync fn.isGenerator ++ key.pieces ++ [.text " "] ++
      fn.pieces
  | .spread dots e => [.leading dots.lo, .text "..."] ++ ended e.span e.pieces

def propertyItems : List Property → List (List Piece)
  | [] => []
  | p :: ps => p.pieces :: propertyItems ps

def Pat.pieces : Pat → List Piece
  | .ident id => id.pieces
  | .array span items =>
    let endsInHole :=
      match items.getLast? with
      | some .hole => true
      | _ => false
    [.leading span.lo, .text "["] ++ inlineListComma endsInHole (patItems items) ++ [.text "]"]
  | .object span props =>
    [.leading span.lo] ++
      (if props.isEmpty then [.text "\x7b\x7d"]
      else [.text "\x7b "] ++ inlineList (patPropertyItems props) ++ [.text " \x7d"])
  | .rest span arg => [.leading span.lo, .text "..."] ++ ended arg.span arg.pieces
  | .default span left value =>
    [.leading span.lo] ++ ended left.span left.pieces ++ [.text " = "] ++
      ended value.span value.pieces
  | .expr e => e.pieces
  | .hole => []
  | .missing _ => []

def patItems : List Pat → List (List Piece)
  | [] => []
  | p :: ps => item p.span.hi (ended p.span p.pieces) :: patItems ps

def PatProperty.pieces : PatProperty → List Piece
  | .keyValue key value =>
    [.leading key.span.lo] ++ key.pieces ++ [.text ": "] ++ ended value.span value.pieces
  | .shorthand span id value =>
    [.leading span.lo] ++ id.pieces ++
      match value with
      | none => []
      | some e => .text " = " :: ended e.span e.pieces
  | .rest span arg => [.leading span.lo, .text "..."] ++ ended arg.span arg.pieces

def patPropertyItems : List PatProperty → List (List Piece)
  | [] => []
  | p :: ps => item p.span.hi p.pieces :: patPropertyItems ps

def Block.pieces : Block → List Piece
  | ⟨span, stmts⟩ => blockPieces span (stmtParts stmts)

/-- Parameters and body. -/
def Function.pieces : Function → List Piece
  | ⟨_, _, _, params, body⟩ =>
    inParens (inlineList (patItems params)) ++ [.text " "] ++ body.pieces

/-- What follows the name of a class. -/
def Class.pieces : Class → List Piece
  | ⟨_, parent, members⟩ =>
    (match parent with
      | none => []
      | some e => .text " extends " :: ended e.span e.pieces) ++
      [.text " \x7b"] ++ linedParts (memberParts members) ++ [.text "\x7d"]

def Member.pieces : Member → List Piece
  | .constructor span params body =>
    [.leading span.lo, .text "constructor"] ++ inParens (inlineList (patItems params)) ++
      body.pieces
  | .method span isStatic kind key fn =>
    [.leading span.lo] ++ earlyKey key ++ (if isStatic then [.text "static "] else []) ++
      (match kind with
        | .method => methodMarks fn.isAsync fn.isGenerator
        | .getter => [.text "get "]
        | .setter => [.text "set "]) ++
      key.pieces ++ fn.pieces
  | .field span isStatic key value =>
    [.leading span.lo] ++ (if isStatic then [.text "static "] else []) ++ key.pieces ++
      (match value with
        | none => []
        | some e => .text " = " :: ended e.span e.pieces) ++
      [.text ";"]
  | .staticBlock span body => [.leading span.lo, .text "static"] ++ body.pieces
  | .empty span => [.leading span.lo, .text ";"]

def memberParts : List Member → List (List Piece)
  | [] => []
  | m :: ms => m.pieces :: memberParts ms

def Declarator.pieces : Declarator → List Piece
  | ⟨span, name, init⟩ =>
    [.leading span.lo] ++ ended name.span name.pieces ++
      match init with
      | none => []
      | some e => .text " = " :: ended e.span e.pieces

def declaratorItems : List Declarator → List (List Piece)
  | [] => []
  | d :: ds => item d.span.hi d.pieces :: declaratorItems ds

def LoopStart.pieces : LoopStart → List Piece
  | .none => []
  | .decl span kind decls =>
    [.leading span.lo, .text kind.text, .text " "] ++ inlineList (declaratorItems decls)
  | .expr e => ended e.span e.pieces
  | .pat p => ended p.span p.pieces

def SwitchCase.pieces : SwitchCase → List Piece
  | ⟨span, test, body⟩ =>
    [.leading span.lo] ++
      (match test with
        | none => [.text "default"]
        | some e => .text "case " :: ended e.span e.pieces) ++
      [.text ":"] ++ (if body.isEmpty then [] else linedParts (stmtParts body))

def caseParts : List SwitchCase → List (List Piece)
  | [] => []
  | c :: cs => c.pieces :: caseParts cs

def Stmt.pieces : Stmt → List Piece
  | .expr span e =>
    [.leading span.lo] ++ statementPieces span e.span.hi (ended e.span e.pieces) ++ [.text ";"]
  | .block b => b.pieces
  | .empty span => [.leading span.lo, .text ";"]
  | .debugger span => [.leading span.lo, .text "debugger;"]
  | .with span obj body =>
    [.leading span.lo, .text "with"] ++ inParens (ended obj.span obj.pieces) ++
      settled body body.pieces
  | .return span arg =>
    [.leading span.lo, .text "return"] ++
      (match arg with
        | none => []
        | some e => .text " " :: ended e.span e.pieces) ++
      [.text ";"]
  | .labeled span label body =>
    [.leading span.lo] ++ label.pieces ++ [.text ": "] ++ settled body body.pieces
  | .break _ label => [.text "break"] ++ optionalName label ++ [.text ";"]
  | .continue _ label => [.text "continue"] ++ optionalName label ++ [.text ";"]
  | .ifThen span test yes =>
    [.leading span.lo, .text "if "] ++ inParens (ended test.span test.pieces) ++ [.text " "] ++
      settled yes yes.pieces
  | .ifElse span test yes no =>
    [.leading span.lo, .text "if "] ++ inParens (ended test.span test.pieces) ++ [.text " "] ++
      settled yes yes.pieces ++
      (match yes with
        | .block _ => [.text " "]
        | _ => []) ++
      [.text "else "] ++ settled no no.pieces
  | .switch span subject cases =>
    [.leading span.lo, .text "switch"] ++ inParens (ended subject.span subject.pieces) ++
      [.text "\x7b"] ++ linedParts (caseParts cases) ++ [.text "\x7d"]
  | .throw span arg =>
    [.leading span.lo, .text "throw "] ++ ended arg.span arg.pieces ++ [.text ";"]
  | .tryCatch span body caught param handler finalizer =>
    [.leading span.lo, .text "try "] ++ body.pieces ++
      (match handler with
        | none => []
        | some b =>
          [.text " ", .leading caught.lo, .text "catch "] ++
            (match param with
              | none => []
              | some p => inParens (ended p.span p.pieces)) ++
            [.text " "] ++ b.pieces) ++
      (match finalizer with
        | none => []
        | some b => .text " finally" :: b.pieces)
  | .whileLoop span test body =>
    [.leading span.lo, .text "while"] ++ inParens (ended test.span test.pieces) ++
      settled body body.pieces
  | .doWhile span test body =>
    [.leading span.lo, .text "do "] ++ settled body body.pieces ++ [.text "while "] ++
      inParens (ended test.span test.pieces)
  | .forLoop span start test step body =>
    [.leading span.lo, .text "for("] ++ start.pieces ++ [.text ";"] ++
      (match test with
        | none => []
        | some e => .text " " :: ended e.span e.pieces) ++
      [.text ";"] ++
      (match step with
        | none => []
        | some e => .text " " :: ended e.span e.pieces) ++
      [.text ")"] ++ settled body body.pieces
  | .forIn span left right body =>
    [.leading span.lo, .text "for("] ++ left.pieces ++ [.text " in "] ++
      ended right.span right.pieces ++ [.text ")"] ++ settled body body.pieces
  | .forOf span isAwait left right body =>
    [.leading span.lo, .text (if isAwait then "for await (" else "for (")] ++ left.pieces ++
      [.text " of "] ++ ended right.span right.pieces ++ [.text ")"] ++ settled body body.pieces
  | .function span name fn =>
    [.leading span.lo] ++ functionWord fn.isAsync fn.isGenerator ++ [.text " "] ++ name.pieces ++
      fn.pieces
  | .classDecl span name cls =>
    [.leading span.lo, .text "class "] ++ name.pieces ++ cls.pieces
  | .var span kind decls =>
    [.leading span.lo, .text kind.text, .text " "] ++ inlineList (declaratorItems decls) ++
      [.text ";"]

def stmtParts : List Stmt → List (List Piece)
  | [] => []
  | s :: ss => settled s s.pieces :: stmtParts ss

end

end BundleLink.Script
