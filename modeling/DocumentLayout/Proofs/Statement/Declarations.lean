import DocumentLayout.Proofs.Statement.Spelling

/-!
# Declarations

The module statements that name a module or list names in braces, as a grammar. Every declaration of
it is read back, however it is spaced: it is one statement, and it is a default export exactly when
it exports something under the name `default` in braces. A star that names a module is none, even
under that name.
-/

namespace DocumentLayout

namespace Statement

/-! ## The grammar -/

namespace Word

def «from» : Word := ⟨"from".toList, by decide⟩

def «as» : Word := ⟨"as".toList, by decide⟩

end Word

/-- A name that is no word of the grammar itself. -/
structure Name extends Word where
  isPlain : Token.ofWord text = .identifier

/-- A name in a brace list, where `default` is one too. -/
inductive ListName where
  | default
  | plain (name : Name)

namespace ListName

def word : ListName → Word
  | default => ⟨"default".toList, by decide⟩
  | plain name => name.toWord

def isDefault : ListName → Bool
  | default => true
  | plain _ => false

def token : ListName → Token
  | default => .default
  | plain _ => .identifier

end ListName

/-- One entry of a brace list: a name, and the name that it is exported or imported under. -/
structure Specifier where
  name : ListName
  alias? : Option ListName

namespace Specifier

def symbols (specifier : Specifier) : List Symbol :=
  .word specifier.name.word ::
    match specifier.alias? with
    | none => []
    | some other => [.word .as, .word other.word]

/-- The name that other modules see. -/
def exported (specifier : Specifier) : ListName := specifier.alias?.getD specifier.name

/-- The symbols behind an opening brace through the closing one: specifiers with commas between
them, and maybe one more comma. -/
def closed (trailingComma : Bool) : List Specifier → List Symbol
  | [] => if trailingComma then [.mark .comma, .mark .braceClose] else [.mark .braceClose]
  | [specifier] => specifier.symbols ++ closed trailingComma []
  | specifier :: other :: specifiers =>
    specifier.symbols ++ .mark .comma :: closed trailingComma (other :: specifiers)

end Specifier

structure BraceList where
  specifiers : List Specifier
  trailingComma : Bool

namespace BraceList

def symbols (list : BraceList) : List Symbol :=
  .mark .braceOpen :: Specifier.closed list.trailingComma list.specifiers

end BraceList

/-- What an import takes out of a module by more than its default: everything under one name, or the
names of a list. -/
inductive Binding where
  | star (name : Name)
  | braces (list : BraceList)

namespace Binding

def symbols : Binding → List Symbol
  | star name => [.mark .star, .word .as, .word name.toWord]
  | braces list => list.symbols

end Binding

inductive Clause where
  | default (name : Name)
  | binding (other : Binding)
  | both (name : Name) (other : Binding)

namespace Clause

def symbols : Clause → List Symbol
  | default name => [.word name.toWord]
  | binding other => other.symbols
  | both name other => .word name.toWord :: .mark .comma :: other.symbols

end Clause

inductive Declaration where
  | importModule (source : Source)
  | importClause (clause : Clause) (source : Source)
  | exportList (list : BraceList) (source? : Option Source)

namespace Declaration

def kind : Declaration → StatementKind
  | importModule _ => .import
  | importClause _ _ => .import
  | exportList _ _ => .export

/-- The symbols behind the keyword. -/
def symbols : Declaration → List Symbol
  | importModule source => [.source source]
  | importClause clause source => clause.symbols ++ [.word .from, .source source]
  | exportList list none => list.symbols
  | exportList list (some source) => list.symbols ++ [.word .from, .source source]

/-- Whether a declaration exports something under the name `default`. -/
def isDefaultExport : Declaration → Bool
  | importModule _ => false
  | importClause _ _ => false
  | exportList list _ => list.specifiers.any (·.exported.isDefault)

end Declaration

/-- The end of a declaration: nothing, or a semicolon. -/
def ending (semicolon : Bool) : List Symbol := if semicolon then [.mark .semicolon] else []

/-! ## Tokens -/

namespace Symbol

@[simp] theorem token_from : (word .from).token = .from := by decide

@[simp] theorem token_as : (word .as).token = .as := by decide

@[simp] theorem token_name (name : Name) : (word name.toWord).token = .identifier := name.isPlain

@[simp] theorem token_listName (name : ListName) : (word name.word).token = name.token := by
  cases name with
  | default => decide
  | plain name => exact name.isPlain

@[simp] theorem token_mark (m : Mark) : (mark m).token = m.token := rfl

@[simp] theorem token_source (name : Source) : (source name).token = .string := rfl

end Symbol

/-! ## Keywords -/

/-- Whether no symbol is a statement keyword. -/
def IsInner (symbols : List Symbol) : Prop :=
  ∀ kind : StatementKind, some kind.token ∉ Symbol.tokens symbols

namespace IsInner

@[simp] theorem nil : IsInner [] := fun _ => List.not_mem_nil

@[simp] theorem cons {symbol : Symbol} {symbols : List Symbol} :
    IsInner (symbol :: symbols) ↔
      (symbol.token ≠ .import ∧ symbol.token ≠ .export) ∧ IsInner symbols := by
  constructor
  · intro h
    refine ⟨⟨fun himport => h .import ?_, fun hexport => h .export ?_⟩, fun kind hmem => h kind ?_⟩
    · simp [himport, StatementKind.token]
    · simp [hexport, StatementKind.token]
    · simp [hmem]
  · rintro ⟨⟨himport, hexport⟩, h⟩ kind hmem
    rcases List.mem_cons.1 hmem with hmem | hmem
    · cases kind with
      | «import» => exact himport (Option.some.inj hmem).symm
      | «export» => exact hexport (Option.some.inj hmem).symm
    · exact h kind hmem

@[simp] theorem append {front back : List Symbol} :
    IsInner (front ++ back) ↔ IsInner front ∧ IsInner back := by
  simp only [IsInner, Symbol.tokens_append, List.mem_append, not_or, forall_and]

@[simp] theorem listName (name : ListName) : name.token ≠ .import ∧ name.token ≠ .export := by
  cases name <;> exact ⟨nofun, nofun⟩

@[simp] theorem specifier (specifier : Specifier) : IsInner specifier.symbols := by
  unfold Specifier.symbols
  split <;> simp

@[simp] theorem closed (trailingComma : Bool) (specifiers : List Specifier) :
    IsInner (Specifier.closed trailingComma specifiers) := by
  fun_induction Specifier.closed trailingComma specifiers with
  | case1 => simp [Mark.token]
  | case2 => simp [Mark.token]
  | case3 specifier ih => simpa using ih
  | case4 specifier other specifiers ih => simpa [Mark.token] using ih

theorem binding (other : Binding) : IsInner other.symbols := by
  cases other <;> simp [Binding.symbols, BraceList.symbols, Mark.token]

theorem clause (clause : Clause) : IsInner clause.symbols := by
  cases clause <;> simp [Clause.symbols, Mark.token, binding]

theorem declaration (declaration : Declaration) (semicolon : Bool) :
    IsInner (declaration.symbols ++ ending semicolon) := by
  have hending : IsInner (ending semicolon) := by
    cases semicolon <;> simp [ending, Mark.token]
  have hdeclaration : IsInner declaration.symbols := by
    cases declaration with
    | importModule => simp [Declaration.symbols]
    | importClause => simp [Declaration.symbols, clause]
    | exportList list source? =>
      cases source? <;> simp [Declaration.symbols, BraceList.symbols, Mark.token]
  exact append.2 ⟨hdeclaration, hending⟩

end IsInner

/-! ## Shapes -/

theorem hasPair_append (a b : Token) (front back : List (Option Token)) :
    hasPair a b (front ++ some a :: some b :: back) = true := by
  induction front with
  | nil => simp [hasPair]
  | cons token front ih =>
    cases front with
    | nil => simp [hasPair]
    | cons next front =>
      rw [List.cons_append, List.cons_append, hasPair, ← List.cons_append, ih, Bool.or_true]

theorem throughBrace?_append {front : List (Option Token)} (h : some .braceClose ∉ front)
    (rest : List (Option Token)) :
    throughBrace? (front ++ rest) = (throughBrace? rest).map (front ++ ·) := by
  induction front with
  | nil => simp
  | cons token front ih =>
    obtain ⟨htoken, hfront⟩ := not_or.1 (List.mem_cons.not.1 h)
    rw [List.cons_append, throughBrace?, ih hfront, Option.map_map]
    · rfl
    · exact fun hclose => htoken hclose.symm

theorem Specifier.braceClose_not_mem (specifier : Specifier) :
    some .braceClose ∉ Symbol.tokens specifier.symbols := by
  have hname (name : ListName) : name.token ≠ .braceClose := by
    cases name <;> simp [ListName.token]
  unfold symbols
  split <;> simp [(hname _).symm]

/-- The list ends at its own brace. -/
theorem throughBrace?_closed (trailingComma : Bool) (specifiers : List Specifier)
    (rest : List (Option Token)) :
    throughBrace? (Symbol.tokens (Specifier.closed trailingComma specifiers) ++ rest) =
      some (Symbol.tokens (Specifier.closed trailingComma specifiers)) := by
  fun_induction Specifier.closed trailingComma specifiers with
  | case1 => simp [throughBrace?, Mark.token]
  | case2 => simp [throughBrace?, Mark.token]
  | case3 specifier ih =>
    rw [Symbol.tokens_append, List.append_assoc,
      throughBrace?_append specifier.braceClose_not_mem, ih, Option.map_some]
  | case4 specifier other specifiers ih =>
    rw [Symbol.tokens_append, List.append_assoc,
      throughBrace?_append specifier.braceClose_not_mem, Symbol.tokens_cons, List.cons_append,
      throughBrace?, ih, Option.map_some, Option.map_some]
    simp [Mark.token]

theorem listsDefault_identifier (rest : List (Option Token)) :
    listsDefault (some .identifier :: rest) = listsDefault rest := by
  rcases rest with _ | ⟨next, _ | ⟨other, rest⟩⟩
  · rfl
  · rfl
  · simp [listsDefault, beq_eq_decide]

-- Behind a separator one specifier is looked at, up to the separator behind it.
theorem exportsDefault_specifier (specifier : Specifier) {before after : Token}
    (hbefore : before = .braceOpen ∨ before = .comma)
    (hafter : after = .braceClose ∨ after = .comma) (rest : List (Option Token)) :
    exportsDefault (some before :: (Symbol.tokens specifier.symbols ++ some after :: rest)) =
      (specifier.exported.isDefault || exportsDefault (some after :: rest)) := by
  obtain ⟨name, alias?⟩ := specifier
  rcases hbefore with rfl | rfl <;> rcases hafter with rfl | rfl <;> cases name <;>
    rcases alias? with _ | _ | _ <;>
    simp [exportsDefault, hasPair, listsDefault, Specifier.symbols, Specifier.exported,
      ListName.isDefault, ListName.token, listsDefault_identifier, beq_eq_decide]

/-- A brace list exports a default exactly when some specifier of it does. -/
theorem exportsDefault_closed (trailingComma : Bool) (specifiers : List Specifier) {before : Token}
    (hbefore : before = .braceOpen ∨ before = .comma) :
    exportsDefault (some before :: Symbol.tokens (Specifier.closed trailingComma specifiers)) =
      specifiers.any (·.exported.isDefault) := by
  induction specifiers generalizing before with
  | nil => rcases hbefore with rfl | rfl <;> cases trailingComma <;> decide
  | cons specifier specifiers ih =>
    cases specifiers with
    | nil =>
      obtain ⟨after, rest, htokens, hafter, hrest⟩ : ∃ after rest,
          Symbol.tokens (Specifier.closed trailingComma []) = some after :: rest ∧
          (after = .braceClose ∨ after = .comma) ∧ exportsDefault (some after :: rest) = false := by
        cases trailingComma
        · exact ⟨_, _, rfl, .inl rfl, by decide⟩
        · exact ⟨_, _, rfl, .inr rfl, by decide⟩
      rw [Specifier.closed, Symbol.tokens_append, htokens,
        exportsDefault_specifier specifier hbefore hafter, hrest, List.any_cons, List.any_nil]
    | cons other specifiers =>
      rw [Specifier.closed, Symbol.tokens_append, Symbol.tokens_cons, Symbol.token_mark, Mark.token,
        exportsDefault_specifier specifier hbefore (.inr rfl), ih (.inr rfl),
        @List.any_cons _ specifier (other :: specifiers)]

theorem hasSource_append (front : List (Option Token)) (source : Source)
    (back : List (Option Token)) :
    hasSource (front ++ Symbol.tokens [.word .from, .source source] ++ back) = true := by
  simp only [Symbol.tokens_cons, Symbol.tokens_nil, Symbol.token_from, Symbol.token_source,
    List.append_assoc, List.cons_append, List.nil_append]
  exact hasPair_append ..

theorem shape?_braces (list : BraceList) (rest : List (Option Token)) :
    shape? (some .export :: (Symbol.tokens list.symbols ++ rest)) =
      some ⟨.export, list.specifiers.any (·.exported.isDefault)⟩ := by
  rw [BraceList.symbols, Symbol.tokens_cons, Symbol.token_mark, Mark.token, List.cons_append,
    shape?, throughBrace?_closed, Option.map_some, exportsDefault_closed _ _ (.inl rfl)]

theorem shape?_import {tokens : List (Option Token)} (h : hasSource tokens = true) :
    shape? (some .import :: tokens) = some ⟨.import, false⟩ := by
  rw [shape?, h, Bool.or_true, if_pos rfl]

/-- The symbols of a declaration have its shape. -/
theorem shape?_declaration (declaration : Declaration) (semicolon : Bool) :
    shape? (some declaration.kind.token ::
      Symbol.tokens (declaration.symbols ++ ending semicolon)) =
        some ⟨declaration.kind, declaration.isDefaultExport⟩ := by
  rw [Symbol.tokens_append]
  cases declaration with
  | importModule source => rfl
  | importClause clause source =>
    refine shape?_import ?_
    rw [Declaration.symbols, Symbol.tokens_append]
    exact hasSource_append ..
  | exportList list source? =>
    cases source? with
    | none => exact shape?_braces list _
    | some source =>
      rw [Declaration.symbols, Symbol.tokens_append, List.append_assoc]
      exact shape?_braces list _

/-! ### Exports under a chosen name -/

/-- The symbols behind the keyword that export everything of a module under one name. -/
def starSymbols (name : ListName) (source : Source) : List Symbol :=
  [.mark .star, .word .as, .word name.word, .word .from, .source source]

/-- The symbols behind the keyword that export one name of a module under another one. -/
def bracesSymbols (inner : Word) (name : ListName) (source : Source) : List Symbol :=
  [.mark .braceOpen, .word inner, .word .as, .word name.word, .mark .braceClose, .word .from,
    .source source]

theorem shape?_star (name : ListName) (source : Source) :
    shape? (some StatementKind.export.token :: Symbol.tokens (starSymbols name source)) =
      some ⟨.export, false⟩ := by
  have hsource := hasSource_append (Symbol.tokens [.word .as, .word name.word]) source []
  rw [← Symbol.tokens_append, List.append_nil] at hsource
  exact if_pos hsource

theorem shape?_bracesSymbols (inner : Word) (name : ListName) (source : Source) :
    shape? (some StatementKind.export.token :: Symbol.tokens (bracesSymbols inner name source)) =
      some ⟨.export, name.isDefault⟩ := by
  have hinner : (Symbol.word inner).token ≠ .braceClose := by
    rw [Symbol.token]
    fun_cases Token.ofWord inner.text <;> simp
  have hname : name.token ≠ .braceClose := by cases name <;> simp [ListName.token]
  have hthrough := @throughBrace?_append
    [some (Symbol.word inner).token, some .as, some name.token]
    (by simp [hinner.symm, hname.symm]) [some .braceClose, some .from, some .string]
  -- The one specifier between the braces is all that is looked at.
  have hdefault : exportsDefault [some .braceOpen, some (Symbol.word inner).token, some .as,
      some name.token, some .braceClose] = name.isDefault := by
    cases name <;>
      simp [exportsDefault, hasPair, listsDefault, ListName.token, ListName.isDefault,
        beq_eq_decide]
  simp only [bracesSymbols, Symbol.tokens_cons, Symbol.tokens_nil, Symbol.token_mark, Mark.token,
    Symbol.token_as, Symbol.token_listName, Symbol.token_from, Symbol.token_source,
    StatementKind.token]
  simp only [List.cons_append, List.nil_append] at hthrough
  rw [shape?, hthrough]
  simp [throughBrace?, hdefault]

end Statement

/-! ## Blocks -/

namespace StatementBlock

open Statement

/-- A block of one statement is what the statement is. -/
theorem kind_singleton (text : Text) (statement : Statement) :
    kind ⟨text, [statement]⟩ = statement.kind := by
  cases hkind : statement.kind <;> simp [kind, hkind]

theorem isDefaultExport_singleton (text : Text) (statement : Statement) :
    isDefaultExport ⟨text, [statement]⟩ = statement.isDefaultExport := by
  simp [isDefaultExport]

/-- Every declaration is read back in front of an empty line, with a semicolon or without one and
however it is spaced. The block is the declaration and nothing else. -/
theorem read?_declaration (declaration : Declaration) (semicolon : Bool) {text : Text}
    (h : Writes declaration.kind (declaration.symbols ++ ending semicolon) text) (rest : Text) :
    ∃ block, read? (text ++ '\n' :: '\n' :: rest) = some block ∧
      block.text = text ∧
      block.statements = [⟨declaration.kind, declaration.isDefaultExport, text⟩] ∧
      block.kind = declaration.kind ∧
      block.isDefaultExport = declaration.isDefaultExport := by
  have hread := h.read?_eq_some (.inl (IsInner.declaration declaration semicolon))
    (shape?_declaration declaration semicolon) rest
  exact ⟨_, hread, rfl, rfl, kind_singleton text _, isDefaultExport_singleton text _⟩

/-- An export of one name over two lines, with a comma at the end of its list. -/
theorem read?_declaration_lines :
    ∃ block, read? "export \x7b\n\ta as default,\x7d from \"m\";\n\nfoo".toList = some block ∧
      block.text = "export \x7b\n\ta as default,\x7d from \"m\";".toList ∧
      block.statements = [⟨.export, true, block.text⟩] ∧
      block.kind = .export ∧ block.isDefaultExport = true := by
  let name : Name := ⟨⟨"a".toList, by decide⟩, by decide⟩
  let source : Source := ⟨'"', "m".toList, by decide, by simp⟩
  let declaration : Declaration := .exportList ⟨[⟨.plain name, some .default⟩], true⟩ (some source)
  have hspells : Spells (declaration.symbols ++ ending true)
      "\x7b\n\ta as default,\x7d from \"m\";".toList :=
    @Spells.next _ _ _ ['\n', '\t'] _ (by decide) (by decide) <|
    @Spells.next _ _ _ [' '] _ (by decide) (by decide) <|
    @Spells.next _ _ _ [' '] _ (by decide) (by decide) <|
    @Spells.next _ _ _ [] _ (by decide) (by decide) <|
    @Spells.next _ _ _ [] _ (by decide) (by decide) <|
    @Spells.next _ _ _ [' '] _ (by decide) (by decide) <|
    @Spells.next _ _ _ [' '] _ (by decide) (by decide) <|
    @Spells.next _ _ _ [] _ (by decide) (by decide) <|
    .last _
  have hwrites : Writes .export (declaration.symbols ++ ending true)
      "export \x7b\n\ta as default,\x7d from \"m\";".toList :=
    ⟨⟨[' '], _, rfl, by decide, by decide, hspells⟩, by decide⟩
  obtain ⟨block, hread, htext, hstatements, hkind, hdefault⟩ :=
    read?_declaration declaration true hwrites "foo".toList
  exact ⟨block, hread, htext, htext.symm ▸ hstatements, hkind, hdefault⟩

/-! ### Exports under a chosen name -/

/-- The text that exports everything of a module under one name. -/
def starExport (name : ListName) (source : Source) : Text :=
  "export * as ".toList ++ name.word.text ++ " from ".toList ++ source.text

/-- The text that exports one name of a module under another one. -/
def bracesExport (inner : Word) (name : ListName) (source : Source) : Text :=
  "export \x7b ".toList ++ inner.text ++ " as ".toList ++ name.word.text ++ " \x7d from ".toList ++
    source.text

theorem starExport_eq (name : ListName) (source : Source) :
    starExport name source = Writes.spaced .export (starSymbols name source) := by
  have hfront : "export * as ".toList =
      StatementKind.export.keyword ++ ' ' :: '*' :: ' ' :: (Word.as.text ++ [' ']) := rfl
  have hback : " from ".toList = ' ' :: (Word.from.text ++ [' ']) := rfl
  unfold starExport
  rw [hfront, hback]
  simp only [starSymbols, Writes.spaced, List.map_cons, List.map_nil, List.intercalate_cons_cons,
    List.intercalate_singleton, Symbol.text, Mark.char, List.append_assoc, List.cons_append,
    List.nil_append]

theorem bracesExport_eq (inner : Word) (name : ListName) (source : Source) :
    bracesExport inner name source = Writes.spaced .export (bracesSymbols inner name source) := by
  have hfront : "export \x7b ".toList = StatementKind.export.keyword ++ [' ', '{', ' '] := rfl
  have has : " as ".toList = ' ' :: (Word.as.text ++ [' ']) := rfl
  have hback : " \x7d from ".toList = ' ' :: '}' :: ' ' :: (Word.from.text ++ [' ']) := rfl
  unfold bracesExport
  rw [hfront, has, hback]
  simp only [bracesSymbols, Writes.spaced, List.map_cons, List.map_nil, List.intercalate_cons_cons,
    List.intercalate_singleton, Symbol.text, Mark.char, List.append_assoc, List.cons_append,
    List.nil_append]

/-- What a text of single spaces is read as, when it has the shape of a statement. -/
theorem read?_spaced {kind : StatementKind} {symbols : List Symbol} (hne : symbols ≠ [])
    {shape : Shape} (hshape : shape? (some kind.token :: Symbol.tokens symbols) = some shape)
    (rest : Text) :
    read? (Writes.spaced kind symbols ++ '\n' :: '\n' :: rest) =
      some ⟨Writes.spaced kind symbols,
        [⟨shape.kind, shape.isDefaultExport, Writes.spaced kind symbols⟩]⟩ :=
  (Writes.of_spaced kind hne).read?_eq_some (.inr (Writes.feed_not_mem_spaced kind symbols)) hshape
    rest

theorem read?_starExport (name : ListName) (source : Source) (rest : Text) :
    read? (starExport name source ++ '\n' :: '\n' :: rest) =
      some ⟨starExport name source, [⟨.export, false, starExport name source⟩]⟩ := by
  rw [starExport_eq]
  have hne : starSymbols name source ≠ [] := List.cons_ne_nil _ _
  exact read?_spaced hne (shape?_star name source) rest

theorem read?_bracesExport (inner : Word) (name : ListName) (source : Source) (rest : Text) :
    read? (bracesExport inner name source ++ '\n' :: '\n' :: rest) =
      some ⟨bracesExport inner name source,
        [⟨.export, name.isDefault, bracesExport inner name source⟩]⟩ := by
  rw [bracesExport_eq]
  have hne : bracesSymbols inner name source ≠ [] := List.cons_ne_nil _ _
  exact read?_spaced hne (shape?_bracesSymbols inner name source) rest

/-- Both texts that export something of a module under a chosen name are read, whatever the name is.
The one with braces is a default export exactly when the name is `default`, and the one with a star
never is, so they agree exactly for the other names. -/
theorem read?_export_as (name : ListName) (inner : Word) (source : Source) (rest : Text) :
    ∃ star braces,
      read? (starExport name source ++ '\n' :: '\n' :: rest) = some star ∧
      read? (bracesExport inner name source ++ '\n' :: '\n' :: rest) = some braces ∧
      star.text = starExport name source ∧ braces.text = bracesExport inner name source ∧
      star.kind = .export ∧ braces.kind = .export ∧
      star.isDefaultExport = false ∧ (braces.isDefaultExport = true ↔ name = .default) ∧
      (star.isDefaultExport = braces.isDefaultExport ↔ name ≠ .default) := by
  have hname : name.isDefault = true ↔ name = .default := by
    cases name <;> simp [ListName.isDefault]
  refine ⟨_, _, read?_starExport name source rest, read?_bracesExport inner name source rest, rfl,
    rfl, kind_singleton _ _, kind_singleton _ _, isDefaultExport_singleton _ _, ?_, ?_⟩
  · rw [isDefaultExport_singleton, hname]
  · rw [isDefaultExport_singleton, isDefaultExport_singleton, eq_comm, Bool.eq_false_iff, Ne, hname]

/-- Under the name `default` only the text with braces is a default export. -/
theorem read?_export_as_default :
    ∃ star braces,
      read? "export * as default from \"./a\"\n\n".toList = some star ∧
      read? "export \x7b x as default \x7d from \"./a\"\n\n".toList = some braces ∧
      star.isDefaultExport = false ∧ braces.isDefaultExport = true := by
  refine ⟨⟨"export * as default from \"./a\"".toList,
      [⟨.export, false, "export * as default from \"./a\"".toList⟩]⟩,
    ⟨"export \x7b x as default \x7d from \"./a\"".toList,
      [⟨.export, true, "export \x7b x as default \x7d from \"./a\"".toList⟩]⟩, ?_, ?_, rfl, rfl⟩
  · decide +kernel
  · decide +kernel

end StatementBlock

end DocumentLayout
