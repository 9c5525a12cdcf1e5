import LexTree.Command.Lex

/-!
# The command line

There are two commands: `langs`, which takes nothing, and `lex FILE` with its options.  An option is given at most once,
its value after a space or an equals sign, or right after its letter.  After `--` everything is positional.
-/

namespace LexTree

/-- What is asked for on the command line. -/
inductive Request where
  | langs
  | lex (file language : String) (format : Format) (o : Options)

namespace Arguments

/-- The options with a value. -/
inductive Setting where
  | language
  | format
  | indentWidth
deriving DecidableEq

/-- The options without a value. -/
inductive Flag where
  | includeWhitespace
  | includeNewlines
  | excludeStrings
  | excludeComments
  | noTabs
deriving DecidableEq

/-- One argument, as it is understood. -/
inductive Item where
  | positional (text : String)
  | setting (s : Setting) (value : String)
  | flag (f : Flag)
deriving DecidableEq

def settingOfName? : String → Option Setting
  | "lang" => some .language
  | "format" => some .format
  | "indent-width" => some .indentWidth
  | _ => none

def settingOfLetter? : Char → Option Setting
  | 'l' => some .language
  | 'f' => some .format
  | _ => none

def flagOfName? : String → Option Flag
  | "include-whitespace" => some .includeWhitespace
  | "include-newlines" => some .includeNewlines
  | "exclude-strings" => some .excludeStrings
  | "exclude-comments" => some .excludeComments
  | "no-tabs" => some .noTabs
  | _ => none

/-- What an argument calls for. -/
inductive Form where
  | positional (text : String)
  /-- Everything after it is positional. -/
  | separator
  | flag (f : Flag)
  | setting (s : Setting) (value : String)
  /-- An option whose value is the next argument. -/
  | awaiting (s : Setting)

/-- A name and what stands after its first equals sign, if it has one. -/
def splitEquals (text : List Char) : String × Option String :=
  let (name, rest) := text.span (· ≠ '=')
  (String.ofList name, match rest with
    | _ :: value => some (String.ofList value)
    | [] => none)

/-- The value written right after an option's letter; an equals sign in front of it does not belong to it. -/
def attachedValue : List Char → String
  | '=' :: value => String.ofList value
  | value => String.ofList value

/-- How an argument is understood; none if there is no such option.  A lone dash is no option. -/
def Form.ofArgument? (arg : String) : Option Form :=
  match arg.toList with
  | ['-', '-'] => some .separator
  | '-' :: '-' :: rest =>
    let (name, value?) := splitEquals rest
    match settingOfName? name, flagOfName? name, value? with
    | some s, _, some value => some (.setting s value)
    | some s, _, none => some (.awaiting s)
    | none, some f, none => some (.flag f)
    | _, _, _ => none
  | '-' :: letter :: rest =>
    match settingOfLetter? letter, rest with
    | some s, [] => some (.awaiting s)
    | some s, rest => some (.setting s (attachedValue rest))
    | none, _ => none
  | _ => some (.positional arg)

/-- The arguments in order, each as it is understood; none if one is not, or lacks its value.  A value after a space
may not look like an option. -/
def items? : List String → Option (List Item)
  | [] => some []
  | arg :: rest =>
    match Form.ofArgument? arg with
    | none => none
    | some .separator => some (rest.map .positional)
    | some (.positional text) => (items? rest).map (.positional text :: ·)
    | some (.flag f) => (items? rest).map (.flag f :: ·)
    | some (.setting s value) => (items? rest).map (.setting s value :: ·)
    | some (.awaiting s) =>
      match rest with
      | [] => none
      | value :: rest =>
        match Form.ofArgument? value with
        | some (.positional _) => (items? rest).map (.setting s value :: ·)
        | _ => none

/-- The values given for a setting. -/
def values (s : Setting) (items : List Item) : List String :=
  items.filterMap fun
    | .setting s' value => if s' = s then some value else none
    | _ => none

/-- The positional arguments. -/
def positionals (items : List Item) : List String :=
  items.filterMap fun
    | .positional text => some text
    | _ => none

/-- A decimal number below 2^32, with an optional sign and any number of leading zeros. -/
def parseWidth? (text : String) : Option UInt32 :=
  let (negative, digits) := match text.toList with
    | '+' :: digits => (false, digits)
    | '-' :: digits => (true, digits)
    | digits => (false, digits)
  if digits.isEmpty || !digits.all Char.isDigit then none
  else
    let n := digits.foldl (fun n d => 10 * n + (d.toNat - '0'.toNat)) 0
    if n < 4294967296 && (!negative || n = 0) then some n.toUInt32 else none

/-- The value of a setting that may be left out, given at most once. -/
def optional? {α : Type} (s : Setting) (items : List Item) (parse? : String → Option α) (default : α) : Option α :=
  match values s items with
  | [] => some default
  | [value] => parse? value
  | _ => none

/-- The request of a `lex` command; none if something is missing, given twice or not understood. -/
def lexRequest? (args : List String) : Option Request := do
  let items ← items? args
  let [file] := positionals items | none
  guard !file.isEmpty
  let [language] := values .language items | none
  let format ← optional? .format items Format.ofName? .tree
  let indentWidth ← optional? .indentWidth items parseWidth? 4
  let count (f : Flag) : Nat := items.count (.flag f)
  guard ([.includeWhitespace, .includeNewlines, .excludeStrings, .excludeComments, .noTabs].all (count · ≤ 1))
  let given (f : Flag) : Bool := count f = 1
  let o : Options := { indentWidth, allowTabs := !given .noTabs }
  return .lex file language format <|
    o.ignoring (given .excludeStrings) (given .excludeComments) (!given .includeWhitespace) (!given .includeNewlines)

/-- What a command line asks for; none if it is not understood. -/
def request? : List String → Option Request
  | ["langs"] | ["langs", "--"] => some .langs
  | "lex" :: args => lexRequest? args
  | _ => none

end Arguments

end LexTree
