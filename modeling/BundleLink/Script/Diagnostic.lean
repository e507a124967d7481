import BundleLink.Text.Quoted
import BundleLink.Script.Tree

/-!
What can be wrong with the text of a module. A `Problem` is the cause; its wording is
`Problem.message`. A `Diagnostic` adds the range it was found at. `Problem.label` is the short form
shown when a malformed token is quoted inside another message.
-/

set_option autoImplicit false

namespace BundleLink.Script

open BundleLink.Text

inductive Problem where
  -- malformed tokens
  | unexpectedChar (c : Char)
  | unterminatedString
  | unterminatedTemplate
  | unterminatedRegExp
  | unterminatedBlockComment
  | invalidStringEscape
  | invalidUnicodeEscape
  | badEscape (expected : String)
  | expectedUnicodeEscape
  | invalidIdentChar
  | escapeInReservedWord (word : String)
  | legacyOctal
  | legacyDecimal
  | expectedDigit (radix : Nat)
  | exponentWithoutDigits
  | identAfterNumber
  | numericSeparator
  | legacyComment
  | conflictMarker
  -- tokens in the wrong place
  | endOfInput
  | expected (what got : String)
  | unexpectedToken (got wanted : String)
  | expressionExpected
  | identExpected
  | semicolonExpected
  | statementEndExpected
  | trailingComma
  -- names
  | strictIdent (name : String)
  | awaitIdent
  | evalOrArguments
  | argumentsInField
  -- expressions
  | unaryBeforeExp
  | mixedNullish
  | notSimpleTarget
  | invalidTarget
  | notAssignable
  | notAPattern
  | assignmentProperty
  | arrowNotAllowed
  | lineBreakBeforeArrow
  | emptyParens
  | spreadInParens
  | awaitStar
  | awaitInFunction
  | awaitInParams
  | yieldInParams
  | invalidSuper
  | invalidSuperCall
  | optionalSuperCall
  | invalidImport
  | optionalAfterNew
  | taggedInOptional
  | invalidNewTarget
  | unknownRegExpFlags
  | duplicateRegExpFlag (flag : Char)
  | deleteIdent
  | optionalProperty
  -- functions and classes
  | restWithInitializer
  | restNotLast
  | commaAfterRest
  | nonLastRest
  | dotsWithoutIdent
  | useStrictWithPatterns
  | getterParams
  | setterParams
  | restInSetter
  | asyncConstructor
  | generatorConstructor
  | accessorConstructor
  | duplicateConstructor
  | fieldNamedConstructor
  | privateConstructor
  | modifierOnConstructor (word : String)
  | duplicateExtends
  | spaceAfterHash
  -- statements
  | lineBreakAfterThrow
  | returnOutside
  | breakOutside
  | breakWithoutLabel
  | continueOutside
  | continueWithoutLabel
  | duplicateLabel (name : String)
  | labelledFunction
  | declarationNotAllowed
  | multipleDefaults
  | withInStrict
  | constWithoutInit
  | patternWithoutInit
  | manyLoopBindings
  | loopInitializer
  | awaitLoop
  | asyncOfLoop
  | usingDisabled
  -- imports and exports
  | importInScript
  | importedString (name : String)
  | exportedString
  | exportNeedsSource (name : String)
deriving DecidableEq, Repr, Inhabited

private def radixWords (radix : Nat) : String :=
  if radix = 2 then "a binary"
  else if radix = 8 then "an octal"
  else if radix = 16 then "a hexadecimal"
  else "a decimal"

def Problem.message : Problem → String
  | unexpectedChar c => "Unexpected character '" ++ quotedChar '\'' c ++ "'"
  | unterminatedString => "Unterminated string constant"
  | unterminatedTemplate => "Unterminated template"
  | unterminatedRegExp => "Unterminated regexp literal"
  | unterminatedBlockComment => "Unterminated block comment"
  | invalidStringEscape => "Invalid string escape"
  | invalidUnicodeEscape => "Invalid unicode escape"
  | badEscape form => "Bad character escape sequence, expected " ++ form
  | expectedUnicodeEscape => "Expected unicode escape"
  | invalidIdentChar => "Invalid character in identifier"
  | escapeInReservedWord word => "Unexpected escape sequence in reserved word: " ++ word
  | legacyOctal => "Legacy octal escape is not permitted in strict mode"
  | legacyDecimal => "Legacy decimal escape is not permitted in strict mode"
  | expectedDigit radix => "Expected " ++ radixWords radix ++ " digit"
  | exponentWithoutDigits => "Expected +, - or decimal digit after e"
  | identAfterNumber => "Identifier cannot follow number"
  | numericSeparator => "A numeric separator is only allowed between two digits"
  | legacyComment => "Legacy comments cannot be used in module code"
  | conflictMarker => "Merge conflict marker encountered."
  | endOfInput => "Unexpected eof"
  | expected what got => "Expected '" ++ what ++ "', got '" ++ got ++ "'"
  | unexpectedToken got wanted => "Unexpected token `" ++ got ++ "`. Expected " ++ wanted
  | expressionExpected => "Expression expected"
  | identExpected => "Expected ident"
  | semicolonExpected => "Expected a semicolon"
  | statementEndExpected => "Expected ';', '\x7d' or <eof>"
  | trailingComma => "Trailing comma is not allowed"
  | strictIdent name => "`" ++ name ++ "` cannot be used as an identifier in strict mode"
  | awaitIdent => "`await` cannot be used as an identifier in an async context"
  | evalOrArguments =>
    "'eval' and 'arguments' cannot be used as a binding identifier in strict mode"
  | argumentsInField => "'arguments' is only allowed in functions and class methods"
  | unaryBeforeExp => "'**' cannot be applied to unary/await expression."
  | mixedNullish =>
    "Nullish coalescing operator(??) requires parens when mixing with logical operators"
  | notSimpleTarget =>
    "The left-hand side of an assignment expression must be a variable or a property access."
  | invalidTarget => "Invalid assignment target"
  | notAssignable => "Cannot assign to this"
  | notAPattern => "Not a pattern"
  | assignmentProperty => "assignment property is invalid syntax"
  | arrowNotAllowed => "An arrow function is not allowed here"
  | lineBreakBeforeArrow => "Unexpected line break between arrow head and arrow"
  | emptyParens => "Parenthesized expression cannot be empty"
  | spreadInParens => "Parenthesized expression cannot contain spread operator"
  | awaitStar =>
    "await* has been removed from the async functions proposal. Use Promise.all() instead."
  | awaitInFunction => "await isn't allowed in non-async function"
  | awaitInParams => "await expressions cannot be used in a parameter initializer"
  | yieldInParams => "'yield' cannot be used as a parameter within generator"
  | invalidSuper => "Invalid access to super"
  | invalidSuperCall => "Invalid `super()`"
  | optionalSuperCall => "Super call cannot be optional"
  | invalidImport => "Import is not allowed here"
  | optionalAfterNew => "Constructor in/after an optional chaining is not allowed."
  | taggedInOptional => "Tagged template expressions are not permitted in an optional chain."
  | invalidNewTarget => "'new.target' is only allowed in the body of a function declaration, " ++
      "function expression, or class."
  | unknownRegExpFlags => "Unknown regular expression flags."
  | duplicateRegExpFlag flag =>
    "Duplicated regular expression flag '" ++ flag.toString ++ "'."
  | deleteIdent => "'delete' cannot be called on an identifier in strict mode"
  | optionalProperty => "An object member cannot be declared optional"
  | restWithInitializer => "A rest parameter cannot have an initializer"
  | restNotLast => "A rest parameter must be last in a parameter list"
  | commaAfterRest => "Trailing comma isn't permitted after a rest element"
  | nonLastRest => "Rest element must be final element"
  | dotsWithoutIdent => "`...` must be followed by an identifier in declaration contexts"
  | useStrictWithPatterns =>
    "Illegal 'use strict' directive in function with non-simple parameter list."
  | getterParams => "A `get` accessor cannot have parameters"
  | setterParams => "A `set` accessor must have exactly one parameter"
  | restInSetter => "Rest pattern is not allowed in setter"
  | asyncConstructor => "Constructor can't be an async function"
  | generatorConstructor => "A constructor cannot be generator"
  | accessorConstructor => "Class constructor can't be an accessor"
  | duplicateConstructor => "A class can only have one constructor"
  | fieldNamedConstructor => "Classes may not have a non-static field named 'constructor'"
  | privateConstructor => "Classes can't have a private field named '#constructor'."
  | modifierOnConstructor word =>
    "'" ++ word ++ "' modifier cannot appear on a constructor declaration"
  | duplicateExtends => "'extends' clause already seen."
  | spaceAfterHash => "Unexpected space between # and identifier"
  | lineBreakAfterThrow => "LineBreak cannot follow 'throw'"
  | returnOutside => "Return statement is not allowed here"
  | breakOutside =>
    "A 'break' statement can only be used within an enclosing iteration or switch statement"
  | breakWithoutLabel => "A 'break' statement can only jump to a label of an enclosing statement"
  | continueOutside =>
    "A 'continue' statement can only jump to a label of an enclosing iteration statement"
  | continueWithoutLabel => "Jump target cannot cross function boundary"
  | duplicateLabel name => "Label " ++ name ++ " is already declared"
  | labelledFunction =>
    "In strict mode code, functions can only be declared at top level or inside a block."
  | declarationNotAllowed => "Declaration is not allowed"
  | multipleDefaults => "A switch block cannot have multiple defaults"
  | withInStrict => "With statement are not allowed in strict mode"
  | constWithoutInit => "'const' declarations must be initialized"
  | patternWithoutInit => "Destructuring bindings require initializers"
  | manyLoopBindings => "Expected one variable binding"
  | loopInitializer => "Unexpected initializer in for in/of loop"
  | awaitLoop => "for await syntax is valid only for for-of statement"
  | asyncOfLoop => "The left-hand side of a `for...of` statement may not be `async`"
  | usingDisabled =>
    "Using declaration is not enabled. Set jsc.parser.explicitResourceManagement to true"
  | importInScript => "'import', and 'export' cannot be used outside of module code"
  | importedString name => "A string literal cannot be used as an imported binding.\n" ++
      "- Did you mean `import \x7b \"" ++ name ++ "\" as foo \x7d`?"
  | exportedString => "A string literal cannot be used as an exported binding without `from`."
  | exportNeedsSource name => "`" ++ name ++ "` cannot be used without `from` clause"

/-- Problems that only strict code has; they are known once the text is read as a module. -/
def Problem.isOfStrictCode : Problem → Bool
  | legacyOctal | legacyDecimal | legacyComment => true
  | _ => false

/-- A problem and where it is. -/
structure Diagnostic where
  span : Span
  problem : Problem
deriving DecidableEq, Repr, Inhabited

private def Problem.label : Problem → String
  | unexpectedChar c => "UnexpectedChar \x7b c: '" ++ quotedChar '\'' c ++ "' \x7d"
  | unterminatedTemplate => "UnterminatedTpl"
  | unterminatedRegExp => "UnterminatedRegExp"
  | invalidStringEscape => "InvalidStrEscape"
  | invalidUnicodeEscape => "InvalidUnicodeEscape"
  | badEscape e => "BadCharacterEscapeSequence \x7b expected: " ++ quoted e ++ " \x7d"
  | expectedUnicodeEscape => "ExpectedUnicodeEscape"
  | escapeInReservedWord w => "EscapeInReservedWord \x7b word: " ++ quoted w ++ " \x7d"
  | expectedDigit r => "ExpectedDigit \x7b radix: " ++ toString r ++ " \x7d"
  | exponentWithoutDigits => "NumLitTerminatedWithExp"
  | identAfterNumber => "IdentAfterNum"
  | legacyOctal => "LegacyOctal"
  | conflictMarker => "TS1185"
  | _ => ""

/-- How a malformed token is shown where another token was wanted; offsets count from one. -/
def Diagnostic.asToken (d : Diagnostic) : String :=
  "<lexing error: Error \x7b error: (" ++ toString (d.span.lo + 1) ++ ".." ++
    toString (d.span.hi + 1) ++ ", " ++ d.problem.label ++ ") \x7d>"

end BundleLink.Script
