import Bundler.JavaScript.Expressions

/-! Statements and declarations. -/
namespace Bundler.JavaScript.Syntax
open Bundler.JavaScript.Parser

/-! ### Declarations -/

/-- A declared variable with its value. The answer tells whether it has one. -/
def declarator (g : Grammar) : Parser (Pattern × List Node × Bool) := do
  skipMarkup
  let p ← declared g
  if ← isAssignAhead then
    symbol "="
    return (p, p.parts ++ [← g.expression .statement], true)
  else return (p, p.parts, false)

/-- Variables behind `var`, `let` or `const`, with the semicolon. -/
def variableDeclaration (g : Grammar) : Parser Declaration := do
  let (span, ds) ← located do
    let _ ← word
    let ds ← commaItems (declarator g) g.bound
    semicolon ((ds.getLast?.map fun d => d.2.2).getD false)
    return ds
  return ⟨span, .patterns (ds.map (·.1)), (ds.map fun d => d.2.1).flatten⟩

/-- A declaration of a function, with its name. -/
def functionDeclaration (g : Grammar) : Parser Declaration := do
  let (span, name, parts) ← located do
    let _ ← optionalWord "async"
    functionWord
    let name ← word
    return (name, ← functionRest g false)
  return ⟨span, .definition name, parts⟩

def isFunctionDeclarationAhead : Parser Bool :=
  accepts do
    if ← optionalWord "async" then
      if ← semicolonImplied true then fail
    functionWord
    word

/-- A declaration of a class behind its decorators. -/
def classDeclaration (g : Grammar) (start : Nat) (ds : List Node) : Parser Declaration := do
  openingWord "class"
  let name ← word
  let parts ← classRest g
  closing false
  return ⟨⟨start, (← cursor).pos⟩, .definition name, ds ++ parts⟩

def isClassDeclarationAhead : Parser Bool :=
  accepts do
    openingWord "class"
    if ← isClassNameAhead then return else fail

/-- Whether `let` starts a declaration here. -/
def isLetAhead : Parser Bool :=
  accepts do
    keyword "let"
    if ← semicolonImplied true then fail
    if ← isDestructuringAhead then return
    match ← wordAhead with
    | some w => if [ "in", "instanceof"].contains w then fail else return
    | none => fail

/-- A declaration, if one comes next. -/
def declaration? (g : Grammar) : Parser (Option Declaration) := do
  skipMarkup
  let start ← cursor
  match ← wordAhead with
  | some "var" | some "const" => return some (← variableDeclaration g)
  | some "let" => if ← isLetAhead then return some (← variableDeclaration g) else return none
  | some "async" | some "function" =>
    if ← isFunctionDeclarationAhead then return some (← functionDeclaration g) else return none
  | _ =>
    if (← isAhead "@") || (← isClassDeclarationAhead) then
      let ds ← decorators g
      if ← isClassDeclarationAhead then return some (← classDeclaration g start.pos ds)
      else
        goto start
        return none
    else return none

/-! ### Control flow -/

/-- A statement inside another one. -/
def nested (g : Grammar) : Parser Node := do
  skipMarkup
  return (← g.statement).node

def ifStatement (g : Grammar) : Parser (List Node) := do
  openingWord "if"
  let condition ← g.parenthesized
  let yes ← nested g
  if ← optionalWord "else" then return condition ++ [yes, ← nested g]
  else return condition ++ [yes]

def whileStatement (g : Grammar) : Parser (List Node) := do
  let _ ← word
  skipMarkup
  let condition ← g.parenthesized
  return condition ++ [← nested g]

def doStatement (g : Grammar) : Parser (List Node) := do
  keyword "do"
  let body ← nested g
  openingWord "while"
  let condition ← g.parenthesized
  closing false
  let _ ← optional ";"
  return body :: condition

/-- The word between a loop variable and what the loop runs over. -/
def loopWord : Parser Unit := orElse (keyword "in") (keyword "of")

/-- The variable of a loop, declared in its header or not. -/
def loopVariable (g : Grammar) : Parser (List Node) := do
  match ← wordAhead with
  | some "var" =>
    openingWord "var"
    let p ← declared g
    if ← isAssignAhead then
      symbol "="
      return p.parts ++ [← g.expression ⟨false, true⟩]
    else return p.parts
  | some "let" => orElse (do keyword "let"; lexical) place
  | some "const" => do openingWord "const"; lexical
  | _ => place
where
  lexical : Parser (List Node) := do
    let p ← declared g
    closing false
    if ← accepts loopWord then return p.parts else fail
  place : Parser (List Node) := do
    if ← isDestructuringAhead then return (← destructuring g).parts
    else
      let o ← reference g
      if o.role == .primary || o.role == .other then fail else return [o.node]

/-- The header of a loop over the members of a value. -/
def memberHeader (g : Grammar) : Parser (List Node) := do
  symbol "("
  skipMarkup
  let variable_ ← loopVariable g
  loopWord
  let es ← g.expressions .inner
  symbol ")"
  return variable_ ++ es

/-- Expressions that end with a semicolon, or the semicolon alone. -/
def headerPart (g : Grammar) : Parser (List Node) := do
  skipMarkup
  if ← optional ";" then return []
  let es ← g.expressions .inner
  symbol ";"
  return es

/-- The header of a loop with a condition. -/
def countedHeader (g : Grammar) : Parser (List Node) := do
  symbol "("
  let first ← match ← declaration? g with
    | some d => pure d.parts
    | none => headerPart g
  let condition ← headerPart g
  skipMarkup
  let last ← if ← isAhead ")" then pure [] else g.expressions .inner
  symbol ")"
  return first ++ condition ++ last

def forStatement (g : Grammar) : Parser (List Node) := do
  openingWord "for"
  let header ←
    if ← optionalWord "await" then
      skipMarkup
      memberHeader g
    else orElse (memberHeader g) (countedHeader g)
  return header ++ [← nested g]

/-- The statements of a case, up to the next one. -/
def caseBody (g : Grammar) : Parser (List Node) :=
  statementsTo g do
    return (← isAhead "\x7d") || (← isWordAhead "case") || (← isWordAhead "default")

def switchCase (g : Grammar) : Parser (List Node) := do
  if ← optionalWord "default" then
    symbol ":"
    caseBody g
  else
    keyword "case"
    let es ← g.expressions .inner
    symbol ":"
    return es ++ (← caseBody g)

def switchStatement (g : Grammar) : Parser (List Node) := do
  openingWord "switch"
  let value ← g.parenthesized
  symbol "\x7b"
  let cases ← manyUntil (do skipMarkup; isAhead "\x7d") (switchCase g) g.bound
  symbol "\x7d"
  return value ++ cases.flatten

def catchClause (g : Grammar) : Parser (List Node) := do
  skipMarkup
  let parameter ←
    if ← optional "(" then
      skipMarkup
      let p ← declared g
      symbol ")"
      pure p.parts
    else pure []
  return parameter ++ [← block g false]

def tryStatement (g : Grammar) : Parser (List Node) := do
  openingWord "try"
  let body ← block g false
  let caught ← if ← optionalWord "catch" then catchClause g else pure []
  let last ←
    if ← optionalWord "finally" then
      skipMarkup
      pure [← block g false]
    else pure []
  return body :: caught ++ last

/-- A jump with an optional label. -/
def jumpStatement : Parser (List Node) := do
  let _ ← word
  if !(← semicolonImplied false) && !(← isAhead ";") then
    let _ ← word
  semicolon false
  return []

def returnStatement (g : Grammar) : Parser (List Node) := do
  keyword "return"
  if (← semicolonImplied false) || (← isAhead ";") then
    semicolon false
    return []
  else
    let es ← g.expressions .statement
    semicolon true
    return es

def throwStatement (g : Grammar) : Parser (List Node) := do
  keyword "throw"
  let es ← g.expressions .statement
  semicolon true
  return es

/-! ### Imports and exports -/

/-- The name of an import or export: a word or a string. -/
def bindingName : Parser Lexeme := do
  skipMarkup
  match (← cursor).rest with
  | '"' :: _ | '\x27' :: _ => string
  | _ => word

/-- An item of an import or export list. The alias of an import is a word. -/
def listItem (alias_ : Parser Lexeme) (onlyWords : Bool) : Parser ListItem := do
  let name ← bindingName
  skipMarkup
  if ← optionalWord "as" then
    skipMarkup
    let other ← alias_
    skipMarkup
    return ⟨name, some other⟩
  if onlyWords && (name.text.head? == some '"' || name.text.head? == some '\x27' ||
      name.text == "default".toList) then fail
  return ⟨name, none⟩

def listItems (g : Grammar) (item : Parser ListItem) : Parser (List ListItem) := do
  symbol "\x7b"
  skipMarkup
  if ← optional "," then
    skipMarkup
    symbol "\x7d"
    return []
  else strictListTo "\x7d" item g.bound

def importList (g : Grammar) : Parser ImportPart := do
  if ← optional "*" then
    skipMarkup
    openingWord "as"
    return .namespace (← word)
  else return .names (← listItems g (listItem word true))

/-- What an import binds, up to the word `from`. -/
def importClause (g : Grammar) : Parser (List ImportPart) := do
  match (← ahead).head? with
  | some '*' | some '{' => return [← importList g]
  | _ =>
    let name ← word
    skipMarkup
    if ← optional "," then
      skipMarkup
      return [.default name, ← importList g]
    else return [.default name]

/-- The attributes behind the source of an import, if it has any. -/
def importAttributes (g : Grammar) : Parser (List Node) := do
  if ← semicolonImplied false then return []
  else if ← optionalWord "with" then
    skipMarkup
    objectLiteral g
  else return []

def importStatement (g : Grammar) : Parser Statement := do
  let (span, clause, source, attributes) ← located do
    openingWord "import"
    let clause ← match (← ahead).head? with
      | some '"' | some '\x27' => pure none
      | _ =>
        let clause ← importClause g
        skipMarkup
        openingWord "from"
        pure (some clause)
    let source ← string
    let attributes ← importAttributes g
    semicolon false
    return (clause, source, attributes)
  return .importing span clause source attributes

/-- The source of an export list, if it has one. -/
def exportSource : Parser (Option Lexeme) := do
  if ← semicolonImplied false then return none
  else if ← optionalWord "from" then
    skipMarkup
    return some (← string)
  else return none

/-- The default export: a declaration or a value. -/
def defaultExport (g : Grammar) (start : Nat) : Parser ExportForm := do
  keyword "default"
  match ← declaration? g with
  | some d => return .declaration true start d
  | none =>
    let e ← g.expression .statement
    semicolon true
    return .value start e

/-- An export of what another module exports, under a name or all of it. -/
def starExport : Parser ExportForm := do
  symbol "*"
  skipMarkup
  let name ← if ← optionalWord "as" then pure (some (← bindingName)) else pure none
  skipMarkup
  openingWord "from"
  let source ← string
  semicolon false
  return .star name source

/-- A list of exports, of this module or of another one. -/
def namesExport (g : Grammar) : Parser ExportForm := do
  let items ← listItems g (listItem bindingName false)
  let source ← exportSource
  semicolon false
  return .names items source

/-- An export behind its decorators, which only stand in front of declarations and values.
Where `isExportAhead` was asked first, no comment in the form of markup follows the word. -/
def exportForm (g : Grammar) (decorated : Bool) : Parser ExportForm := do
  skip
  let start := (← cursor).pos
  openingWord "export"
  match (← ahead).head?, ← wordAhead with
  | some '*', _ => if decorated then fail else starExport
  | some '{', _ => if decorated then fail else namesExport g
  | _, some "default" => defaultExport g start
  | _, _ =>
    match ← declaration? g with
    | some d => return .declaration false start d
    | none => fail

def exportStatement (g : Grammar) : Parser Statement := do
  let (span, ds, form) ← located do
    let ds ← decorators g
    return (ds, ← exportForm g !ds.isEmpty)
  return .exporting span form ds

/-- Whether an export statement comes next, and not the name `export`. -/
def isExportAhead : Parser Bool :=
  accepts do
    keyword "export"
    if ← semicolonImplied true then fail
    match (← ahead).head? with
    | some '*' | some '{' | some '@' => return
    | _ =>
      match ← wordAhead with
      | some w =>
        if ["default", "var", "let", "const", "function", "async", "class"].contains w then return
        else fail
      | none => fail

/-! ### All statements -/

def expressionStatement (g : Grammar) : Parser Statement := do
  let (span, es) ← located do
    let es ← g.expressions .statement
    semicolon true
    return es
  match es with
  | [.string l] => return .directive span l
  | es => return .other span es

/-- A statement made of the parts that `p` reads. -/
def statementOf (p : Parser (List Node)) : Parser Statement := do
  let (span, parts) ← located p
  return .other span parts

/-- A block, or an object where no block can be read. -/
def bracedStatement (g : Grammar) : Parser Statement := do
  let body := statementOf do return [← block g false]
  if ← opensObject then orElse body (expressionStatement g) else body

/-- Words that are operands or operators wherever an expression may start. -/
def expressionWords : List String :=
  ["this", "super", "true", "false", "null", "undefined", "function", "class", "new", "typeof",
    "void", "delete", "await", "yield", "using", "import", "var", "const"]

/-- Whether a word can be a label. -/
def isLabelWord (w : String) : Bool := !expressionWords.contains w

def labelledStatement (g : Grammar) : Parser (List Node) := do
  let _ ← word
  symbol ":"
  return [← nested g]

/-- A statement that starts with a word and is no declaration. -/
def wordStatement (g : Grammar) (w : String) : Parser Statement := do
  match w with
  | "if" => statementOf (ifStatement g)
  | "while" | "with" => statementOf (whileStatement g)
  | "do" => statementOf (doStatement g)
  | "for" => statementOf (forStatement g)
  | "switch" => statementOf (switchStatement g)
  | "try" => statementOf (tryStatement g)
  | "break" | "continue" => statementOf jumpStatement
  | "debugger" =>
    statementOf do
      let _ ← word
      semicolon false
      return []
  | "return" => statementOf (returnStatement g)
  | "throw" => statementOf (throwStatement g)
  | "import" =>
    if ← accepts (do openingWord "import"; orElse (symbol "(") (symbol ".")) then
      expressionStatement g
    else importStatement g
  | w =>
    if isLabelWord w && (← accepts (do let _ ← word; symbol ":")) then
      statementOf (labelledStatement g)
    else if ← isExportAhead then exportStatement g
    else expressionStatement g

def statement (g : Grammar) : Parser Statement := do
  skipMarkup
  match (← cursor).rest with
  | '{' :: _ => bracedStatement g
  | ';' :: _ => statementOf do
    symbol ";"
    return []
  | '@' :: _ =>
    if ← accepts (do let _ ← decorators g; keyword "export") then exportStatement g
    else match ← declaration? g with
      | some d => return .declaration d
      | none => expressionStatement g
  | _ =>
    match ← wordAhead with
    | some w =>
      if ← accepts (do let _ ← word; symbol ":") then wordStatement g w
      else match ← declaration? g with
        | some d => return .declaration d
        | none => wordStatement g w
    | none => expressionStatement g

end Bundler.JavaScript.Syntax
