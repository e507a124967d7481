import BundleLink.Script.Tree

/-!
Visiting the names and string literals of a module. A `Visitor` replaces each of them and may carry
a state from one to the next. Nodes are visited in the order of their parts, which is that of the
source but for a few: members of a class come before its parent, substitutions before the text of a
template, and the condition of a `do` loop before its body.
-/

set_option autoImplicit false

namespace BundleLink.Script

/-- What becomes of a name and of a string literal. Names of properties are no `Ident`s, so they are
never visited; those in quotation marks are string literals. -/
structure Visitor (σ : Type) where
  ident : Ident → StateM σ Ident := pure
  string : StringLit → StateM σ StringLit := pure

variable {σ : Type}

def Visitor.optionalIdent (v : Visitor σ) : Option Ident → StateM σ (Option Ident)
  | none => pure none
  | some id => do return some (← v.ident id)

def Literal.visit (v : Visitor σ) : Literal → StateM σ Literal
  | .string s => do return .string (← v.string s)
  | l => pure l

mutual

def Expr.visit (v : Visitor σ) : Expr → StateM σ Expr
  | .ident id => do return .ident (← v.ident id)
  | .literal l => do return .literal (← l.visit v)
  | .template span quasis exprs => do return .template span quasis (← visitExprs v exprs)
  | .tagged span tag quoted quasis exprs => do
    let tag ← tag.visit v
    return .tagged span tag quoted quasis (← visitExprs v exprs)
  | .array span items => do return .array span (← visitExprs v items)
  | .object span props => do return .object span (← visitProperties v props)
  | .function span name fn => do
    let name ← v.optionalIdent name
    return .function span name (← fn.visit v)
  | .arrow span isAsync params body => do
    let params ← visitPats v params
    return .arrow span isAsync params (← body.visit v)
  | .arrowExpr span isAsync params body => do
    let params ← visitPats v params
    return .arrowExpr span isAsync params (← body.visit v)
  | .classExpr span name cls => do
    let name ← v.optionalIdent name
    return .classExpr span name (← cls.visit v)
  | .unary span op arg => do return .unary span op (← arg.visit v)
  | .update span op first arg => do return .update span op first (← arg.visit v)
  | .binary span op left right => do
    let left ← left.visit v
    return .binary span op left (← right.visit v)
  | .assign span op target value => do
    let target ← target.visit v
    return .assign span op target (← value.visit v)
  | .cond span test yes no => do
    let test ← test.visit v
    let yes ← yes.visit v
    return .cond span test yes (← no.visit v)
  | .member span obj prop => do
    let obj ← obj.visit v
    return .member span obj (← prop.visit v)
  | .superMember span superSpan prop => do return .superMember span superSpan (← prop.visit v)
  | .call span callee args => do
    let callee ← callee.visit v
    return .call span callee (← visitExprs v args)
  | .superCall span superSpan args => do return .superCall span superSpan (← visitExprs v args)
  | .importCall span importSpan phase args => do
    return .importCall span importSpan phase (← visitExprs v args)
  | .new span callee args => do
    let callee ← callee.visit v
    return .new span callee (← visitExprs v args)
  | .newBare span callee => do return .newBare span (← callee.visit v)
  | .optMember span optional obj prop => do
    let obj ← obj.visit v
    return .optMember span optional obj (← prop.visit v)
  | .optCall span optional callee args => do
    let callee ← callee.visit v
    return .optCall span optional callee (← visitExprs v args)
  | .seq span exprs => do return .seq span (← visitExprs v exprs)
  | .await span arg => do return .await span (← arg.visit v)
  | .yield span delegate arg => do return .yield span delegate (← visitExpr? v arg)
  | .paren span inner => do return .paren span (← inner.visit v)
  | .spread dots e => do return .spread dots (← e.visit v)
  | .this span => pure (.this span)
  | .newTarget span => pure (.newTarget span)
  | .importMeta span => pure (.importMeta span)
  | .privateName span name => pure (.privateName span name)
  | .hole => pure .hole
  | .missing span => pure (.missing span)

def visitExprs (v : Visitor σ) : List Expr → StateM σ (List Expr)
  | [] => pure []
  | e :: es => do
    let e ← e.visit v
    return e :: (← visitExprs v es)

def visitExpr? (v : Visitor σ) : Option Expr → StateM σ (Option Expr)
  | none => pure none
  | some e => do return some (← e.visit v)

def Key.visit (v : Visitor σ) : Key → StateM σ Key
  | .ident span name => pure (.ident span name)
  | .string s => do return .string (← v.string s)
  | .number span raw => pure (.number span raw)
  | .bigInt span raw => pure (.bigInt span raw)
  | .computed span e => do return .computed span (← e.visit v)
  | .privateName span name => pure (.privateName span name)

def Property.visit (v : Visitor σ) : Property → StateM σ Property
  | .shorthand id => do return .shorthand (← v.ident id)
  | .keyValue key value => do
    let key ← key.visit v
    return .keyValue key (← value.visit v)
  | .initialized span id value => do
    let id ← v.ident id
    return .initialized span id (← value.visit v)
  | .getter span key body => do
    let key ← key.visit v
    return .getter span key (← body.visit v)
  | .setter span key param body => do
    let key ← key.visit v
    let param ← param.visit v
    return .setter span key param (← body.visit v)
  | .method span key fn => do
    let key ← key.visit v
    return .method span key (← fn.visit v)
  | .spread dots e => do return .spread dots (← e.visit v)

def visitProperties (v : Visitor σ) : List Property → StateM σ (List Property)
  | [] => pure []
  | p :: ps => do
    let p ← p.visit v
    return p :: (← visitProperties v ps)

def Pat.visit (v : Visitor σ) : Pat → StateM σ Pat
  | .ident id => do return .ident (← v.ident id)
  | .array span items => do return .array span (← visitPats v items)
  | .object span props => do return .object span (← visitPatProperties v props)
  | .rest span arg => do return .rest span (← arg.visit v)
  | .default span left value => do
    let left ← left.visit v
    return .default span left (← value.visit v)
  | .expr e => do return .expr (← e.visit v)
  | .hole => pure .hole
  | .missing span => pure (.missing span)

def visitPats (v : Visitor σ) : List Pat → StateM σ (List Pat)
  | [] => pure []
  | p :: ps => do
    let p ← p.visit v
    return p :: (← visitPats v ps)

def visitPat? (v : Visitor σ) : Option Pat → StateM σ (Option Pat)
  | none => pure none
  | some p => do return some (← p.visit v)

def PatProperty.visit (v : Visitor σ) : PatProperty → StateM σ PatProperty
  | .keyValue key value => do
    let key ← key.visit v
    return .keyValue key (← value.visit v)
  | .shorthand span id value => do
    let id ← v.ident id
    return .shorthand span id (← visitExpr? v value)
  | .rest span arg => do return .rest span (← arg.visit v)

def visitPatProperties (v : Visitor σ) : List PatProperty → StateM σ (List PatProperty)
  | [] => pure []
  | p :: ps => do
    let p ← p.visit v
    return p :: (← visitPatProperties v ps)

def Block.visit (v : Visitor σ) : Block → StateM σ Block
  | ⟨span, stmts⟩ => do return ⟨span, ← visitStmts v stmts⟩

def visitBlock? (v : Visitor σ) : Option Block → StateM σ (Option Block)
  | none => pure none
  | some b => do return some (← b.visit v)

def Function.visit (v : Visitor σ) : Function → StateM σ Function
  | ⟨span, isAsync, isGenerator, params, body⟩ => do
    let params ← visitPats v params
    return ⟨span, isAsync, isGenerator, params, ← body.visit v⟩

def Class.visit (v : Visitor σ) : Class → StateM σ Class
  | ⟨span, parent, members⟩ => do
    let members ← visitMembers v members
    return ⟨span, ← visitExpr? v parent, members⟩

def Member.visit (v : Visitor σ) : Member → StateM σ Member
  | .constructor span params body => do
    let params ← visitPats v params
    return .constructor span params (← body.visit v)
  | .method span isStatic kind key fn => do
    let key ← key.visit v
    return .method span isStatic kind key (← fn.visit v)
  | .field span isStatic key value => do
    let key ← key.visit v
    return .field span isStatic key (← visitExpr? v value)
  | .staticBlock span body => do return .staticBlock span (← body.visit v)
  | .empty span => pure (.empty span)

def visitMembers (v : Visitor σ) : List Member → StateM σ (List Member)
  | [] => pure []
  | m :: ms => do
    let m ← m.visit v
    return m :: (← visitMembers v ms)

def Declarator.visit (v : Visitor σ) : Declarator → StateM σ Declarator
  | ⟨span, name, init⟩ => do
    let name ← name.visit v
    return ⟨span, name, ← visitExpr? v init⟩

def visitDeclarators (v : Visitor σ) : List Declarator → StateM σ (List Declarator)
  | [] => pure []
  | d :: ds => do
    let d ← d.visit v
    return d :: (← visitDeclarators v ds)

def LoopStart.visit (v : Visitor σ) : LoopStart → StateM σ LoopStart
  | .none => pure .none
  | .decl span kind decls => do return .decl span kind (← visitDeclarators v decls)
  | .expr e => do return .expr (← e.visit v)
  | .pat p => do return .pat (← p.visit v)

def SwitchCase.visit (v : Visitor σ) : SwitchCase → StateM σ SwitchCase
  | ⟨span, test, body⟩ => do
    let test ← visitExpr? v test
    return ⟨span, test, ← visitStmts v body⟩

def visitCases (v : Visitor σ) : List SwitchCase → StateM σ (List SwitchCase)
  | [] => pure []
  | c :: cs => do
    let c ← c.visit v
    return c :: (← visitCases v cs)

def Stmt.visit (v : Visitor σ) : Stmt → StateM σ Stmt
  | .expr span e => do return .expr span (← e.visit v)
  | .block b => do return .block (← b.visit v)
  | .empty span => pure (.empty span)
  | .debugger span => pure (.debugger span)
  | .with span obj body => do
    let obj ← obj.visit v
    return .with span obj (← body.visit v)
  | .return span arg => do return .return span (← visitExpr? v arg)
  | .labeled span label body => do
    let label ← v.ident label
    return .labeled span label (← body.visit v)
  | .break span label => do return .break span (← v.optionalIdent label)
  | .continue span label => do return .continue span (← v.optionalIdent label)
  | .ifThen span test yes => do
    let test ← test.visit v
    return .ifThen span test (← yes.visit v)
  | .ifElse span test yes no => do
    let test ← test.visit v
    let yes ← yes.visit v
    return .ifElse span test yes (← no.visit v)
  | .switch span subject cases => do
    let subject ← subject.visit v
    return .switch span subject (← visitCases v cases)
  | .throw span arg => do return .throw span (← arg.visit v)
  | .tryCatch span body caught param handler finalizer => do
    let body ← body.visit v
    let param ← visitPat? v param
    let handler ← visitBlock? v handler
    return .tryCatch span body caught param handler (← visitBlock? v finalizer)
  | .whileLoop span test body => do
    let test ← test.visit v
    return .whileLoop span test (← body.visit v)
  | .doWhile span test body => do
    let test ← test.visit v
    return .doWhile span test (← body.visit v)
  | .forLoop span start test step body => do
    let start ← start.visit v
    let test ← visitExpr? v test
    let step ← visitExpr? v step
    return .forLoop span start test step (← body.visit v)
  | .forIn span left right body => do
    let left ← left.visit v
    let right ← right.visit v
    return .forIn span left right (← body.visit v)
  | .forOf span isAwait left right body => do
    let left ← left.visit v
    let right ← right.visit v
    return .forOf span isAwait left right (← body.visit v)
  | .function span name fn => do
    let name ← v.ident name
    return .function span name (← fn.visit v)
  | .classDecl span name cls => do
    let name ← v.ident name
    return .classDecl span name (← cls.visit v)
  | .var span kind decls => do return .var span kind (← visitDeclarators v decls)

def visitStmts (v : Visitor σ) : List Stmt → StateM σ (List Stmt)
  | [] => pure []
  | s :: ss => do
    let s ← s.visit v
    return s :: (← visitStmts v ss)

end

def ExternalName.visit (v : Visitor σ) : ExternalName → StateM σ ExternalName
  | .ident id => do return .ident (← v.ident id)
  | .string s => do return .string (← v.string s)

def visitExternalName? (v : Visitor σ) : Option ExternalName → StateM σ (Option ExternalName)
  | none => pure none
  | some n => do return some (← n.visit v)

def ImportSpecifier.visit (v : Visitor σ) : ImportSpecifier → StateM σ ImportSpecifier
  | .default span binding => do return .default span (← v.ident binding)
  | .namespace span binding => do return .namespace span (← v.ident binding)
  | .named span binding imported => do
    let binding ← v.ident binding
    return .named span binding (← visitExternalName? v imported)

def ExportSpecifier.visit (v : Visitor σ) : ExportSpecifier → StateM σ ExportSpecifier
  | .namespace span name => do return .namespace span (← name.visit v)
  | .named span orig exported => do
    let orig ← orig.visit v
    return .named span orig (← visitExternalName? v exported)

def visitAttributes (v : Visitor σ) : Option Attributes → StateM σ (Option Attributes)
  | none => pure none
  | some a => do return some ⟨a.span, ← visitProperties v a.props⟩

def ImportDecl.visit (v : Visitor σ) (d : ImportDecl) : StateM σ ImportDecl := do
  let specifiers ← d.specifiers.mapM (·.visit v)
  let source ← v.string d.source
  let attributes ← visitAttributes v d.attributes
  return { d with specifiers, source, attributes }

def ExportNamed.visit (v : Visitor σ) (d : ExportNamed) : StateM σ ExportNamed := do
  let specifiers ← d.specifiers.mapM (·.visit v)
  let source ← d.source.mapM v.string
  let attributes ← visitAttributes v d.attributes
  return { d with specifiers, source, attributes }

def ExportAll.visit (v : Visitor σ) (d : ExportAll) : StateM σ ExportAll := do
  let source ← v.string d.source
  let attributes ← visitAttributes v d.attributes
  return { d with source, attributes }

def DefaultDecl.visit (v : Visitor σ) : DefaultDecl → StateM σ DefaultDecl
  | .function span name fn => do
    let name ← v.optionalIdent name
    return .function span name (← fn.visit v)
  | .classDecl span name cls => do
    let name ← v.optionalIdent name
    return .classDecl span name (← cls.visit v)

def ModuleItem.visit (v : Visitor σ) : ModuleItem → StateM σ ModuleItem
  | importDecl d => do return .importDecl (← d.visit v)
  | exportNamed d => do return .exportNamed (← d.visit v)
  | exportAll d => do return .exportAll (← d.visit v)
  | exportDecl span d => do return .exportDecl span (← d.visit v)
  | exportDefaultDecl span d => do return .exportDefaultDecl span (← d.visit v)
  | exportDefaultExpr span e => do return .exportDefaultExpr span (← e.visit v)
  | stmt s => do return .stmt (← s.visit v)

def Module.visit (v : Visitor σ) (m : Module) : StateM σ Module := do
  return { m with items := ← m.items.mapM (·.visit v) }

/-- The module after a visit that begins in the state `s`. -/
def Module.visited (v : Visitor σ) (s : σ) (m : Module) : Module :=
  (m.visit v |>.run s).1

end BundleLink.Script
