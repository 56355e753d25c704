import SqlDdl.Text.UpperCase

/-!
# Keywords

The words with a meaning of their own in the grammar. A keyword is recognised in
any mix of ASCII upper and lower case and in no other spelling; type names are
ordinary words.
-/

namespace SqlDdl

/-- A reserved word. -/
inductive Keyword where
  | action | «by» | cascade | check | collate | constraint | create | default | deferrable
  | deferred | delete | drop | «exists» | false | foreign | «if» | immediate | index | inherit
  | initially | key | no | not | null | on | primary | references | restrict | schema | «set»
  | table | true | unique | update | view
  deriving DecidableEq, Inhabited

namespace Keyword

/-- All keywords in alphabetical order. -/
def all : List Keyword :=
  [.action, .«by», .cascade, .check, .collate, .constraint, .create, .default, .deferrable,
   .deferred, .delete, .drop, .«exists», .false, .foreign, .«if», .immediate, .index, .inherit,
   .initially, .key, .no, .not, .null, .on, .primary, .references, .restrict, .schema, .«set»,
   .table, .true, .unique, .update, .view]

/-- The canonical spelling, in capitals. -/
def spelling : Keyword → String
  | .action => "ACTION"
  | .«by» => "BY"
  | .cascade => "CASCADE"
  | .check => "CHECK"
  | .collate => "COLLATE"
  | .constraint => "CONSTRAINT"
  | .create => "CREATE"
  | .default => "DEFAULT"
  | .deferrable => "DEFERRABLE"
  | .deferred => "DEFERRED"
  | .delete => "DELETE"
  | .drop => "DROP"
  | .«exists» => "EXISTS"
  | .false => "FALSE"
  | .foreign => "FOREIGN"
  | .«if» => "IF"
  | .immediate => "IMMEDIATE"
  | .index => "INDEX"
  | .inherit => "INHERIT"
  | .initially => "INITIALLY"
  | .key => "KEY"
  | .no => "NO"
  | .not => "NOT"
  | .null => "NULL"
  | .on => "ON"
  | .primary => "PRIMARY"
  | .references => "REFERENCES"
  | .restrict => "RESTRICT"
  | .schema => "SCHEMA"
  | .«set» => "SET"
  | .table => "TABLE"
  | .true => "TRUE"
  | .unique => "UNIQUE"
  | .update => "UPDATE"
  | .view => "VIEW"

/-- The keyword a word spells, if it spells one. -/
def ofWord? (word : String) : Option Keyword :=
  let capitals := Text.toUpperASCII word
  all.find? (·.spelling == capitals)

end Keyword

end SqlDdl
