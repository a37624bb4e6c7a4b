/-!
The kinds of token in GameMaker Language source. Punctuation and keywords have one fixed spelling each;
the remaining kinds carry the text they were read from. Every kind has the upper-case name under which
tree dumps and error details show it.
-/

namespace GmlLayout

inductive Symbol where
  | leftParen | rightParen | leftBrace | rightBrace | leftBracket | rightBracket | comma | dot
  | colon | semicolon | slash | backslash | star | percent | hash | plusEquals | minusEquals
  | starEquals | slashEquals | caretEquals | barEquals | ampersandEquals | percentEquals
  | listIndexer | mapIndexer | gridIndexer | arrayIndexer | minus | plus | increment | decrement
  | bang | hook | tilde | lessGreater | doubleAmpersand | doubleBar | doubleCaret | ampersand | bar
  | caret | shiftLeft | shiftRight | bangEqual | equal | equalEqual | greater | greaterEqual | less
  | lessEqual
deriving DecidableEq, Repr

namespace Symbol

def text : Symbol → String
  | .leftParen => "("
  | .rightParen => ")"
  | .leftBrace => "\x7b"
  | .rightBrace => "\x7d"
  | .leftBracket => "["
  | .rightBracket => "]"
  | .comma => ","
  | .dot => "."
  | .colon => ":"
  | .semicolon => ";"
  | .slash => "/"
  | .backslash => "\\"
  | .star => "*"
  | .percent => "%"
  | .hash => "#"
  | .plusEquals => "+="
  | .minusEquals => "-="
  | .starEquals => "*="
  | .slashEquals => "/="
  | .caretEquals => "^="
  | .barEquals => "|="
  | .ampersandEquals => "&="
  | .percentEquals => "%="
  | .listIndexer => "[|"
  | .mapIndexer => "[?"
  | .gridIndexer => "[#"
  | .arrayIndexer => "[@"
  | .minus => "-"
  | .plus => "+"
  | .increment => "++"
  | .decrement => "--"
  | .bang => "!"
  | .hook => "?"
  | .tilde => "~"
  | .lessGreater => "<>"
  | .doubleAmpersand => "&&"
  | .doubleBar => "||"
  | .doubleCaret => "^^"
  | .ampersand => "&"
  | .bar => "|"
  | .caret => "^"
  | .shiftLeft => "<<"
  | .shiftRight => ">>"
  | .bangEqual => "!="
  | .equal => "="
  | .equalEqual => "=="
  | .greater => ">"
  | .greaterEqual => ">="
  | .less => "<"
  | .lessEqual => "<="

def name : Symbol → String
  | .leftParen => "LPAREN"
  | .rightParen => "RPAREN"
  | .leftBrace => "LBRACE"
  | .rightBrace => "RBRACE"
  | .leftBracket => "LBRACKET"
  | .rightBracket => "RBRACKET"
  | .comma => "COMMA"
  | .dot => "DOT"
  | .colon => "COLON"
  | .semicolon => "SEMICOLON"
  | .slash => "SLASH"
  | .backslash => "BACKSLASH"
  | .star => "STAR"
  | .percent => "MOD"
  | .hash => "HASHTAG"
  | .plusEquals => "PLUS_EQUALS"
  | .minusEquals => "MINUS_EQUALS"
  | .starEquals => "STAR_EQUALS"
  | .slashEquals => "SLASH_EQUALS"
  | .caretEquals => "BIT_XOR_EQUALS"
  | .barEquals => "BIT_OR_EQUALS"
  | .ampersandEquals => "BIT_AND_EQUALS"
  | .percentEquals => "MOD_EQUALS"
  | .listIndexer => "LIST_INDEXER"
  | .mapIndexer => "MAP_INDEXER"
  | .gridIndexer => "GRID_INDEXER"
  | .arrayIndexer => "ARRAY_INDEXER"
  | .minus => "MINUS"
  | .plus => "PLUS"
  | .increment => "INCREMENTER"
  | .decrement => "DECREMENTER"
  | .bang => "BANG"
  | .hook => "HOOK"
  | .tilde => "TILDE"
  | .lessGreater => "LESS_GREATER"
  | .doubleAmpersand => "LOGICAL_AND"
  | .doubleBar => "LOGICAL_OR"
  | .doubleCaret => "LOGICAL_XOR"
  | .ampersand => "BIT_AND"
  | .bar => "BIT_OR"
  | .caret => "BIT_XOR"
  | .shiftLeft => "BIT_LEFT"
  | .shiftRight => "BIT_RIGHT"
  | .bangEqual => "BANG_EQUAL"
  | .equal => "EQUAL"
  | .equalEqual => "EQUAL_EQUAL"
  | .greater => "GREATER"
  | .greaterEqual => "GREATER_EQUAL"
  | .less => "LESS"
  | .lessEqual => "LESS_EQUAL"

def all : List Symbol :=
  [.leftParen, .rightParen, .leftBrace, .rightBrace, .leftBracket, .rightBracket, .comma, .dot,
   .colon, .semicolon, .slash, .backslash, .star, .percent, .hash, .plusEquals, .minusEquals,
   .starEquals, .slashEquals, .caretEquals, .barEquals, .ampersandEquals, .percentEquals,
   .listIndexer, .mapIndexer, .gridIndexer, .arrayIndexer, .minus, .plus, .increment, .decrement,
   .bang, .hook, .tilde, .lessGreater, .doubleAmpersand, .doubleBar, .doubleCaret, .ampersand,
   .bar, .caret, .shiftLeft, .shiftRight, .bangEqual, .equal, .equalEqual, .greater, .greaterEqual,
   .less, .lessEqual]

theorem mem_all (symbol : Symbol) : symbol ∈ all := by
  cases symbol <;> decide

end Symbol

inductive Keyword where
  | varWord | andWord | orWord | xorWord | notWord | ifWord | elseWord | functionWord
  | constructorWord | newWord | deleteWord | returnWord | forWord | repeatWord | whileWord | doWord
  | untilWord | switchWord | caseWord | defaultWord | modWord | divWord | breakWord | exitWord
  | enumWord | withWord | thenWord | globalvarWord
deriving DecidableEq, Repr

namespace Keyword

def text : Keyword → String
  | .varWord => "var"
  | .andWord => "and"
  | .orWord => "or"
  | .xorWord => "xor"
  | .notWord => "not"
  | .ifWord => "if"
  | .elseWord => "else"
  | .functionWord => "function"
  | .constructorWord => "constructor"
  | .newWord => "new"
  | .deleteWord => "delete"
  | .returnWord => "return"
  | .forWord => "for"
  | .repeatWord => "repeat"
  | .whileWord => "while"
  | .doWord => "do"
  | .untilWord => "until"
  | .switchWord => "switch"
  | .caseWord => "case"
  | .defaultWord => "default"
  | .modWord => "mod"
  | .divWord => "div"
  | .breakWord => "break"
  | .exitWord => "exit"
  | .enumWord => "enum"
  | .withWord => "with"
  | .thenWord => "then"
  | .globalvarWord => "globalvar"

def name : Keyword → String
  | .varWord => "VAR"
  | .andWord => "AND_ALIAS"
  | .orWord => "OR_ALIAS"
  | .xorWord => "XOR_ALIAS"
  | .notWord => "NOT_ALIAS"
  | .ifWord => "IF"
  | .elseWord => "ELSE"
  | .functionWord => "FUNCTION"
  | .constructorWord => "CONSTRUCTOR"
  | .newWord => "NEW"
  | .deleteWord => "DELETE"
  | .returnWord => "RETURN"
  | .forWord => "FOR"
  | .repeatWord => "REPEAT"
  | .whileWord => "WHILE"
  | .doWord => "DO"
  | .untilWord => "UNTIL"
  | .switchWord => "SWITCH"
  | .caseWord => "CASE"
  | .defaultWord => "DEFAULT"
  | .modWord => "MOD_ALIAS"
  | .divWord => "DIV"
  | .breakWord => "BREAK"
  | .exitWord => "EXIT"
  | .enumWord => "ENUM"
  | .withWord => "WITH"
  | .thenWord => "THEN"
  | .globalvarWord => "GLOBALVAR"

def all : List Keyword :=
  [.varWord, .andWord, .orWord, .xorWord, .notWord, .ifWord, .elseWord, .functionWord,
   .constructorWord, .newWord, .deleteWord, .returnWord, .forWord, .repeatWord, .whileWord,
   .doWord, .untilWord, .switchWord, .caseWord, .defaultWord, .modWord, .divWord, .breakWord,
   .exitWord, .enumWord, .withWord, .thenWord, .globalvarWord]

theorem mem_all (keyword : Keyword) : keyword ∈ all := by
  cases keyword <;> decide

def ofText? (word : String) : Option Keyword :=
  all.find? fun keyword => keyword.text = word

theorem text_of_ofText? {word : String} {keyword : Keyword} (found : ofText? word = some keyword) :
    keyword.text = word := by
  simpa using List.find?_some found

end Keyword

/-- What a token is. A `foreign` kind never comes from source text; it stands for a name that a caller
made up, and it has no spelling of its own. -/
inductive Kind where
  | symbol (mark : Symbol)
  | keyword (word : Keyword)
  | define
  | newline
  | identifier
  | string
  | number
  | numberStartDot
  | numberEndDot
  | lineComment
  | blockComment
  | regionBegin
  | regionEnd
  | macroLine
  | unidentified
  | foreign (name : String)
deriving DecidableEq, Repr

namespace Kind

def name : Kind → String
  | .symbol mark => mark.name
  | .keyword word => word.name
  | .define => "DEFINE"
  | .newline => "NEWLINE"
  | .identifier => "IDENT"
  | .string => "STRING"
  | .number => "NUMBER"
  | .numberStartDot => "NUMBER_START_DOT"
  | .numberEndDot => "NUMBER_END_DOT"
  | .lineComment => "COMMENT"
  | .blockComment => "MULTILINE_COMMENT"
  | .regionBegin => "REGION_BEGIN"
  | .regionEnd => "REGION_END"
  | .macroLine => "MACRO"
  | .unidentified => "UNIDENTIFIED"
  | .foreign name => name

/-- The spelling that every token of this kind shares; empty for kinds without one. -/
def fixedText : Kind → String
  | .symbol mark => mark.text
  | .keyword word => word.text
  | .define => "#define"
  | .newline => "\n"
  | _ => ""

/-- Kinds whose tokens carry the text they were read from. -/
def carriesText : Kind → Bool
  | .identifier | .string | .number | .numberStartDot | .numberEndDot
  | .lineComment | .blockComment | .regionBegin | .regionEnd | .macroLine | .unidentified => true
  | _ => false

/-- Kinds that the grammar collects into the slots between the meaningful tokens. -/
def isTrivia : Kind → Bool
  | .newline | .lineComment | .blockComment | .regionBegin | .regionEnd => true
  | .keyword .thenWord => true
  | _ => false

def all : List Kind :=
  Symbol.all.map .symbol ++ Keyword.all.map .keyword ++
    [.define, .newline, .identifier, .string, .number, .numberStartDot, .numberEndDot,
     .lineComment, .blockComment, .regionBegin, .regionEnd, .macroLine, .unidentified]

def ofName (name : String) : Kind :=
  (all.find? fun kind => kind.name = name).getD (.foreign name)

end Kind

end GmlLayout
