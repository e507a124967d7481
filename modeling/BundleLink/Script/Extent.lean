import BundleLink.Script.Tree

/-!
The range of the source that a node was read from.
-/

set_option autoImplicit false

namespace BundleLink.Script

def Literal.span : Literal → Span
  | string s => s.span
  | number span _ | bigInt span _ | regExp span _ _ | boolean span _ | null span => span

def Expr.span : Expr → Span
  | this span | template span .. | tagged span .. | array span .. | object span ..
  | function span .. | arrow span .. | arrowExpr span .. | classExpr span .. | unary span ..
  | update span .. | binary span .. | assign span .. | cond span .. | member span ..
  | superMember span .. | call span .. | superCall span .. | importCall span .. | new span ..
  | newBare span .. | optMember span .. | optCall span .. | seq span .. | await span ..
  | yield span .. | newTarget span | importMeta span | paren span .. | privateName span ..
  | missing span => span
  | ident id => id.span
  | literal l => l.span
  | spread dots e => ⟨dots.lo, e.span.hi⟩
  | hole => default

def Key.span : Key → Span
  | ident span _ | number span _ | bigInt span _ | computed span _ | privateName span _ => span
  | string s => s.span

def Pat.span : Pat → Span
  | ident id => id.span
  | array span .. | object span .. | rest span _ | default span _ _ | missing span => span
  | expr e => e.span
  | hole => Inhabited.default

def PatProperty.span : PatProperty → Span
  | keyValue key value => ⟨key.span.lo, value.span.hi⟩
  | shorthand span _ _ | rest span _ => span

def Property.span : Property → Span
  | shorthand id => id.span
  | keyValue key value => ⟨key.span.lo, value.span.hi⟩
  | initialized span _ _ | getter span _ _ | setter span _ _ _ | method span _ _ => span
  | spread dots e => ⟨dots.lo, e.span.hi⟩

def Member.span : Member → Span
  | constructor span .. | method span .. | field span .. | staticBlock span _ | empty span => span

def Stmt.span : Stmt → Span
  | expr span _ | empty span | debugger span | .with span _ _ | .return span _
  | labeled span _ _ | .break span _ | .continue span _ | ifThen span _ _ | ifElse span _ _ _
  | switch span _ _ | throw span _ | tryCatch span .. | whileLoop span _ _ | doWhile span _ _
  | forLoop span .. | forIn span .. | forOf span .. | function span _ _ | classDecl span _ _
  | var span _ _ => span
  | block b => b.span

def ExternalName.span : ExternalName → Span
  | ident id => id.span
  | string s => s.span

def ImportSpecifier.span : ImportSpecifier → Span
  | .default span _ | .namespace span _ | .named span _ _ => span

def ExportSpecifier.span : ExportSpecifier → Span
  | .namespace span _ | .named span _ _ => span

def ModuleItem.span : ModuleItem → Span
  | importDecl d => d.span
  | exportNamed d => d.span
  | exportAll d => d.span
  | exportDecl span _ | exportDefaultDecl span _ | exportDefaultExpr span _ => span
  | stmt s => s.span

end BundleLink.Script
