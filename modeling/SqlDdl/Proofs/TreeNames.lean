import SqlDdl.Statement

/-!
# Names in a tree

The names in a statement, in the order of the tree, and what is left of it without
them: its literals, built-in types and modifiers, its flags, and how many parts of each
kind it has in which order. The two together are all of the statement.
-/

namespace SqlDdl

/-- A type whose values hold names beside all else. -/
class HasNames (α : Type) where
  /-- The names in a value, in their order. -/
  names : α → List String
  /-- A value with every name in it made empty. -/
  anonymous : α → α
  /-- What is left without the names says how many names there are, and together with them it
  determines the value. -/
  determined : ∀ {a b : α} {xs ys : List String}, anonymous a = anonymous b →
    names a ++ xs = names b ++ ys → a = b ∧ xs = ys

open HasNames (names anonymous determined)

/-- Values with the same names that are the same without them are equal. -/
theorem HasNames.ext {α : Type} [HasNames α] {a b : α} (ha : anonymous a = anonymous b)
    (hn : names a = names b) : a = b := by
  have hnames : names a ++ [] = names b ++ [] := by rw [hn]
  exact (determined ha hnames).1

/-- A text that names something is its own name. -/
instance : HasNames String where
  names text := [text]
  anonymous _ := ""
  determined _ h := List.cons.inj h

section Containers

variable {α : Type} [HasNames α]

/-- The names in a list are those in its members. -/
instance : HasNames (List α) where
  names members := members.flatMap names
  anonymous members := members.map anonymous
  determined := by
    -- The names behind those of the first member are what its own names leave over.
    intro members others xs ys ha hn
    induction members generalizing others with
    | nil =>
      obtain rfl : others = [] := List.map_eq_nil_iff.mp ha.symm
      exact ⟨rfl, hn⟩
    | cons member members ih =>
      cases others with
      | nil => cases ha
      | cons other others =>
        obtain ⟨hmember, hmembers⟩ := List.cons.inj ha
        rw [List.flatMap_cons, List.flatMap_cons, List.append_assoc, List.append_assoc] at hn
        obtain ⟨rfl, hrest⟩ := determined hmember hn
        obtain ⟨rfl, hrest'⟩ := ih hmembers hrest
        exact ⟨rfl, hrest'⟩

/-- The names in what may be missing. -/
instance : HasNames (Option α) where
  names value := value.elim [] names
  anonymous value := value.map anonymous
  determined := by
    rintro (_ | a) (_ | b) xs ys ha hn
    · exact ⟨rfl, hn⟩
    · cases ha
    · cases ha
    · obtain ⟨rfl, hrest⟩ := determined (Option.some.inj ha) hn
      exact ⟨rfl, hrest⟩

end Containers

/-- Each part of a name is a name. -/
instance : HasNames ObjectName where
  names name := names name.parts
  anonymous name := ⟨anonymous name.parts⟩
  determined := by
    rintro ⟨parts⟩ ⟨others⟩ xs ys ha hn
    obtain ⟨rfl, hrest⟩ := determined (ObjectName.mk.inj ha) hn
    exact ⟨rfl, hrest⟩

/-- Only a type that is not built in has names. -/
instance : HasNames DataType where
  names
    | .custom name => names name
    | _ => []
  anonymous
    | .custom name => .custom (anonymous name)
    | dataType => dataType
  determined := by
    intro a b xs ys ha hn
    cases a with
    | custom name =>
      cases b with
      | custom other =>
        obtain ⟨rfl, hrest⟩ := determined (DataType.custom.inj ha) hn
        exact ⟨rfl, hrest⟩
      | _ => cases ha
    | _ =>
      cases b with
      | custom other => cases ha
      | _ => exact ⟨ha, hn⟩

namespace Expression

mutual

/-- The identifiers and the names of functions in an expression. -/
def namesIn : Expression → List String
  | literal _ => []
  | identifier name => [name]
  | call name arguments => name :: namesInEach arguments
  | negate operand => operand.namesIn

/-- The names in some expressions. -/
def namesInEach : List Expression → List String
  | [] => []
  | first :: others => first.namesIn ++ namesInEach others

end

mutual

/-- An expression with every name in it made empty. -/
def withoutNames : Expression → Expression
  | literal constant => literal constant
  | identifier _ => identifier ""
  | call _ arguments => call "" (eachWithoutNames arguments)
  | negate operand => negate operand.withoutNames

/-- Some expressions with every name in them made empty. -/
def eachWithoutNames : List Expression → List Expression
  | [] => []
  | first :: others => first.withoutNames :: eachWithoutNames others

end

mutual

/-- An expression is determined by its names and what is left without them. -/
theorem determined_of_names : (a b : Expression) → {xs ys : List String} →
    a.withoutNames = b.withoutNames → a.namesIn ++ xs = b.namesIn ++ ys → a = b ∧ xs = ys
  | literal constant, literal other, _, _, ha, hn => ⟨ha, hn⟩
  | identifier name, identifier other, _, _, ha, hn => by
    obtain ⟨rfl, hrest⟩ := List.cons.inj hn
    exact ⟨rfl, hrest⟩
  | call name arguments, call other others, _, _, ha, hn => by
    obtain ⟨-, hothers⟩ := Expression.call.inj ha
    obtain ⟨rfl, hrest⟩ := List.cons.inj hn
    obtain ⟨rfl, hrest'⟩ := each_determined_of_names arguments others hothers hrest
    exact ⟨rfl, hrest'⟩
  | negate operand, negate other, _, _, ha, hn => by
    obtain ⟨rfl, hrest⟩ := determined_of_names operand other (Expression.negate.inj ha) hn
    exact ⟨rfl, hrest⟩

/-- Some expressions are determined by their names and what is left without them. -/
theorem each_determined_of_names : (as bs : List Expression) → {xs ys : List String} →
    eachWithoutNames as = eachWithoutNames bs → namesInEach as ++ xs = namesInEach bs ++ ys →
    as = bs ∧ xs = ys
  | [], [], _, _, _, hn => ⟨rfl, hn⟩
  | first :: others, first' :: others', _, _, ha, hn => by
    obtain ⟨hfirst, hothers⟩ := List.cons.inj ha
    rw [namesInEach, namesInEach, List.append_assoc, List.append_assoc] at hn
    obtain ⟨rfl, hrest⟩ := determined_of_names first first' hfirst hn
    obtain ⟨rfl, hrest'⟩ := each_determined_of_names others others' hothers hrest
    exact ⟨rfl, hrest'⟩

end

/-- The names in an expression. -/
instance : HasNames Expression where
  names := namesIn
  anonymous := withoutNames
  determined := determined_of_names _ _

/-- The names in some expressions are those in a list of them. -/
theorem namesInEach_eq (expressions : List Expression) :
    namesInEach expressions = names expressions := by
  induction expressions with
  | nil => rfl
  | cons first others ih =>
    rw [namesInEach, ih]
    rfl

/-- Some expressions without their names are a list without its names. -/
theorem eachWithoutNames_eq (expressions : List Expression) :
    eachWithoutNames expressions = anonymous expressions := by
  induction expressions with
  | nil => rfl
  | cons first others ih =>
    rw [eachWithoutNames, ih]
    rfl

end Expression

/-- The names in a reference are those of the table and of the columns. -/
instance : HasNames ForeignKey where
  names reference := names reference.foreignTable ++ names reference.referredColumns
  anonymous reference :=
    { reference with
      foreignTable := anonymous reference.foreignTable
      referredColumns := anonymous reference.referredColumns }
  determined := by
    rintro ⟨table, columns, onDelete, onUpdate⟩ ⟨table', columns', onDelete', onUpdate'⟩ xs ys ha hn
    obtain ⟨htable, hcolumns, rfl, rfl⟩ := ForeignKey.mk.inj ha
    rw [List.append_assoc, List.append_assoc] at hn
    obtain ⟨rfl, hrest⟩ := determined htable hn
    obtain ⟨rfl, hrest'⟩ := determined hcolumns hrest
    exact ⟨rfl, hrest'⟩

/-- Only a foreign key has names. -/
instance : HasNames ConstraintKind where
  names
    | .foreignKey reference => names reference
    | _ => []
  anonymous
    | .foreignKey reference => .foreignKey (anonymous reference)
    | kind => kind
  determined := by
    intro a b xs ys ha hn
    cases a with
    | foreignKey reference =>
      cases b with
      | foreignKey other =>
        obtain ⟨rfl, hrest⟩ := determined (ConstraintKind.foreignKey.inj ha) hn
        exact ⟨rfl, hrest⟩
      | _ => cases ha
    | _ =>
      cases b with
      | foreignKey other => cases ha
      | _ => exact ⟨ha, hn⟩

/-- The names in a constraint are its own, those in its kind and those of its columns. -/
instance : HasNames Constraint where
  names constraint := names constraint.name ++ (names constraint.kind ++ names constraint.columns)
  anonymous constraint :=
    { constraint with
      name := anonymous constraint.name
      kind := anonymous constraint.kind
      columns := anonymous constraint.columns }
  determined := by
    rintro ⟨name, kind, columns, _, _, _, _, _⟩ ⟨name', kind', columns', _, _, _, _, _⟩ xs ys ha hn
    obtain ⟨hname, hkind, hcolumns, rfl, rfl, rfl, rfl, rfl⟩ := Constraint.mk.inj ha
    simp only [List.append_assoc] at hn
    obtain ⟨rfl, hrest⟩ := determined hname hn
    obtain ⟨rfl, hrest'⟩ := determined hkind hrest
    obtain ⟨rfl, hrest''⟩ := determined hcolumns hrest'
    exact ⟨rfl, hrest''⟩

/-- The names in a column are its own and those in its type, its collation and its default. -/
instance : HasNames Column where
  names column :=
    names column.name ++ (names column.dataType ++
      (names column.collation ++ names column.default))
  anonymous column :=
    { column with
      name := anonymous column.name
      dataType := anonymous column.dataType
      collation := anonymous column.collation
      default := anonymous column.default }
  determined := by
    rintro ⟨name, type, collation, default, _⟩ ⟨name', type', collation', default', _⟩ xs ys ha hn
    obtain ⟨hname, htype, hcollation, hdefault, rfl⟩ := Column.mk.inj ha
    simp only [List.append_assoc] at hn
    obtain ⟨rfl, hrest⟩ := determined hname hn
    obtain ⟨rfl, hrest'⟩ := determined htype hrest
    obtain ⟨rfl, hrest''⟩ := determined hcollation hrest'
    obtain ⟨rfl, hrest'''⟩ := determined hdefault hrest''
    exact ⟨rfl, hrest'''⟩

/-- The names in a table are its own and those in its columns and constraints. -/
instance : HasNames CreateTable where
  names table := names table.name ++ (names table.columns ++ names table.constraints)
  anonymous table :=
    { table with
      name := anonymous table.name
      columns := anonymous table.columns
      constraints := anonymous table.constraints }
  determined := by
    rintro ⟨name, _, columns, constraints⟩ ⟨name', _, columns', constraints'⟩ xs ys ha hn
    obtain ⟨hname, rfl, hcolumns, hconstraints⟩ := CreateTable.mk.inj ha
    simp only [List.append_assoc] at hn
    obtain ⟨rfl, hrest⟩ := determined hname hn
    obtain ⟨rfl, hrest'⟩ := determined hcolumns hrest
    obtain ⟨rfl, hrest''⟩ := determined hconstraints hrest'
    exact ⟨rfl, hrest''⟩

/-- The names in a statement. -/
instance : HasNames Statement where
  names
    | .createTable table => names table
    | .createSchema schema => names schema.name
    | .dropTable drop => names drop.name
  anonymous
    | .createTable table => .createTable (anonymous table)
    | .createSchema schema => .createSchema { schema with name := anonymous schema.name }
    | .dropTable drop => .dropTable { drop with name := anonymous drop.name }
  determined := by
    intro a b xs ys ha hn
    cases a with
    | createTable table =>
      cases b with
      | createTable other =>
        obtain ⟨rfl, hrest⟩ := determined (Statement.createTable.inj ha) hn
        exact ⟨rfl, hrest⟩
      | _ => cases ha
    | createSchema schema =>
      cases b with
      | createSchema other =>
        rcases schema with ⟨name, _⟩
        rcases other with ⟨name', _⟩
        obtain ⟨hname, rfl⟩ := CreateSchema.mk.inj (Statement.createSchema.inj ha)
        obtain ⟨rfl, hrest⟩ := determined hname hn
        exact ⟨rfl, hrest⟩
      | _ => cases ha
    | dropTable drop =>
      cases b with
      | dropTable other =>
        rcases drop with ⟨name, _, _⟩
        rcases other with ⟨name', _, _⟩
        obtain ⟨hname, rfl, rfl⟩ := DropTable.mk.inj (Statement.dropTable.inj ha)
        obtain ⟨rfl, hrest⟩ := determined hname hn
        exact ⟨rfl, hrest⟩
      | _ => cases ha

end SqlDdl
