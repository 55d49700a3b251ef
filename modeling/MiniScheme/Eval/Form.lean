/-!
# Special forms

The special forms, their keywords, and tables that say which names stand for
which form. A combination that begins with a name in the table in use is that
special form, whatever the name is bound to.
-/

namespace MiniScheme

/-- The special forms. -/
inductive Form where
  | conjunction
  | sequence
  | cond
  | define
  | defineMacro
  | branch
  | lambda
  | binding
  | mu
  | disjunction
  | quasiquote
  | quote
  | assignment
  | unquote
  | unquoteSplicing
  deriving DecidableEq

namespace Form

/-- The standard name of a form. -/
def keyword : Form → String
  | conjunction => "and"
  | sequence => "begin"
  | cond => "cond"
  | define => "define"
  | defineMacro => "define-macro"
  | branch => "if"
  | lambda => "lambda"
  | binding => "let"
  | mu => "mu"
  | disjunction => "or"
  | quasiquote => "quasiquote"
  | quote => "quote"
  | assignment => "set!"
  | unquote => "unquote"
  | unquoteSplicing => "unquote-splicing"

/-- All forms, in the order of their standard names. -/
def all : List Form :=
  [conjunction, sequence, cond, define, defineMacro, branch, lambda, binding, mu, disjunction,
    quasiquote, quote, assignment, unquote, unquoteSplicing]

/-- The form with this standard name. -/
def ofKeyword? (name : String) : Option Form := all.find? fun form => form.keyword = name

end Form

/-- The names that stand for special forms. -/
abbrev FormTable := List (String × Form)

namespace FormTable

/-- Every form under its standard name. -/
def standard : FormTable := Form.all.map fun form => (form.keyword, form)

/-- The names in the table. -/
def names (forms : FormTable) : List String := forms.map Prod.fst

end FormTable
end MiniScheme
