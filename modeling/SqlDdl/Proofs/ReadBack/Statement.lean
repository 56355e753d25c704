import SqlDdl.Proofs.ReadBack
import SqlDdl.Statement.Json

/-!
# Statements read back from JSON

Every statement is read back from the JSON value that it is written as, also one that no text
gives. A default of `NULL` is written as an expression and stays apart from no default, which
is written as `null` or left out.
-/

namespace SqlDdl

open Json (ReadsBack)

/-- Names are read back. -/
theorem ObjectName.readsBack : ReadsBack toJson ofJson? where
  ne_null _ := nofun
  decode_eq h := by
    have hparts := Json.readsBack_strings.decode_eq h
    simp [ofJson?, hparts]

namespace DataType

/-- Type modifiers are read back where they are there. -/
theorem readsBack_modifier : ReadsBack (fun n : UInt32 => .ofNat n.toNat) modifierOfJson? where
  ne_null _ := nofun
  decode_eq := by
    intro n value h
    cases h
    have hn : n.toNat < UInt32.size := n.toNat_lt
    simp [modifierOfJson?, Json.natBelow?, hn]

/-- The length of a character type is read back. -/
theorem lengthOfJson?_eq {length : Option UInt32} {value : Json}
    (h : (Json.object [("length", modifierToJson length)]).AbridgedTo value) :
    lengthOfJson? value = some length := by
  cases h with
  | object each =>
    have hlength := readsBack_modifier.optional (each.lookup (by simp) "length")
    simp [lengthOfJson?, Json.members?, hlength]

/-- Types are read back. -/
theorem readsBack : ReadsBack toJson ofJson? where
  ne_null dataType := by cases dataType <;> nofun
  decode_eq := by
    intro dataType value h
    cases dataType with
    | numeric precision scale =>
      obtain ⟨body, rfl, hbody⟩ := h.tagged nofun
      cases hbody with
      | object each =>
        have hfields := each.lookup (by simp)
        have hprecision := readsBack_modifier.optional (hfields "precision")
        have hscale := readsBack_modifier.optional (hfields "scale")
        simp [ofJson?, Json.variant?, Json.tagged, Json.members?, hprecision, hscale]
    | varchar length =>
      obtain ⟨body, rfl, hbody⟩ := h.tagged nofun
      simp [ofJson?, Json.variant?, Json.tagged, lengthOfJson?_eq hbody]
    | char length =>
      obtain ⟨body, rfl, hbody⟩ := h.tagged nofun
      simp [ofJson?, Json.variant?, Json.tagged, lengthOfJson?_eq hbody]
    | custom name =>
      obtain ⟨body, rfl, hbody⟩ := h.tagged (ObjectName.readsBack.ne_null name)
      simp [ofJson?, Json.variant?, Json.tagged, ObjectName.readsBack.decode_eq hbody]
    | _ =>
      cases h
      rfl

end DataType

/-- Constants are read back. -/
theorem Literal.readsBack : ReadsBack toJson ofJson? where
  ne_null constant := by cases constant <;> nofun
  decode_eq := by
    intro constant value h
    cases constant with
    | null =>
      cases h
      rfl
    | boolean truth =>
      obtain ⟨body, rfl, hbody⟩ := h.tagged nofun
      simp [ofJson?, Json.variant?, Json.tagged, Json.readsBack_bool.decode_eq hbody]
    | number text =>
      obtain ⟨body, rfl, hbody⟩ := h.tagged nofun
      simp [ofJson?, Json.variant?, Json.tagged, Json.readsBack_string.decode_eq hbody]
    | string text =>
      obtain ⟨body, rfl, hbody⟩ := h.tagged nofun
      simp [ofJson?, Json.variant?, Json.tagged, Json.readsBack_string.decode_eq hbody]

namespace Expression

/-- The arguments of a call are those found under their name. -/
theorem argumentsOfMembers?_eq (members : List (String × Json)) :
    argumentsOfMembers? members = (members.lookup "args").bind argumentsOfJson? := by
  induction members with
  | nil => simp [argumentsOfMembers?]
  | cons member members ih =>
    rw [argumentsOfMembers?, List.lookup_cons]
    by_cases hname : member.1 = "args"
    · simp [hname]
    · have hother : ("args" == member.1) = false := by simpa using Ne.symm hname
      simp [hname, hother, ih]

/-- No expression is written as `null`. -/
theorem toJson_ne_null (expression : Expression) : expression.toJson ≠ .null := by
  cases expression <;> simp [toJson, Json.tagged]

mutual

/-- An expression is read back: a constant as what it carries, a call with its arguments. -/
theorem ofJson?_eq : (expression : Expression) → {value : Json} →
    expression.toJson.AbridgedTo value → ofJson? value = some expression
  | .literal constant, value, h => by
    rw [toJson] at h
    obtain ⟨body, rfl, hbody⟩ := h.tagged (Literal.readsBack.ne_null constant)
    simp [Json.tagged, ofJson?, Literal.readsBack.decode_eq hbody]
  | .identifier name, value, h => by
    rw [toJson] at h
    obtain ⟨body, rfl, hbody⟩ := h.tagged nofun
    simp [Json.tagged, ofJson?, Json.readsBack_string.decode_eq hbody]
  | .call name arguments, value, h => by
    rw [toJson] at h
    obtain ⟨body, rfl, hbody⟩ := h.tagged nofun
    cases hbody with
    | object each =>
      have hfields := each.lookup (by simp)
      obtain ⟨text, hname, htext⟩ := Json.readsBack_string.field (hfields "name")
      obtain ⟨list, hargs, hlist⟩ := (hfields "args").found nofun
      cases hlist with
      | array items =>
        have harguments := listOfJson?_eq arguments items
        simp [Json.tagged, ofJson?, callOfJson?, argumentsOfMembers?_eq, hname, htext, hargs,
          argumentsOfJson?, harguments]
  | .negate operand, value, h => by
    rw [toJson] at h
    obtain ⟨body, rfl, hbody⟩ := h.tagged (toJson_ne_null operand)
    simp [Json.tagged, ofJson?, ofJson?_eq operand hbody]

/-- Expressions are read back one by one. -/
theorem listOfJson?_eq : (expressions : List Expression) → {items : List Json} →
    Json.ItemsAbridgedTo (listToJson expressions) items → listOfJson? items = some expressions
  | [], items, h => by
    rw [listToJson] at h
    cases h
    simp [listOfJson?]
  | first :: others, items, h => by
    rw [listToJson] at h
    cases h with
    | cons hfirst hothers =>
      simp [listOfJson?, ofJson?_eq first hfirst, listOfJson?_eq others hothers]

end

/-- Expressions are read back. -/
theorem readsBack : ReadsBack toJson ofJson? where
  ne_null := toJson_ne_null
  decode_eq h := ofJson?_eq _ h

end Expression

/-- Columns are read back. -/
theorem Column.readsBack : ReadsBack toJson ofJson? where
  ne_null _ := nofun
  decode_eq := by
    intro column value h
    cases h with
    | object each =>
      have hfields := each.lookup (by simp)
      obtain ⟨_, hname, hnameRead⟩ := Json.readsBack_string.field (hfields "name")
      obtain ⟨_, htype, htypeRead⟩ := DataType.readsBack.field (hfields "data_type")
      have hcollation := ObjectName.readsBack.optional (hfields "collation")
      have hdefault := Expression.readsBack.optional (hfields "default")
      obtain ⟨_, hnotNull, hnotNullRead⟩ := Json.readsBack_bool.field (hfields "not_null")
      simp [ofJson?, Json.fields?, hname, hnameRead, htype, htypeRead, hcollation, hdefault,
        hnotNull, hnotNullRead]

/-- Referential actions are read back. -/
theorem ReferentialAction.readsBack : ReadsBack toJson ofJson? where
  ne_null action := by cases action <;> nofun
  decode_eq := by
    intro action value h
    cases action <;> cases h <;> rfl

/-- References to other tables are read back. -/
theorem ForeignKey.readsBack : ReadsBack toJson ofJson? where
  ne_null _ := nofun
  decode_eq := by
    intro reference value h
    cases h with
    | object each =>
      have hfields := each.lookup (by simp)
      obtain ⟨_, htable, htableRead⟩ := ObjectName.readsBack.field (hfields "foreign_table")
      obtain ⟨_, hcolumns, hcolumnsRead⟩ :=
        Json.readsBack_strings.field (hfields "referred_columns")
      have hdelete := ReferentialAction.readsBack.optional (hfields "on_delete")
      have hupdate := ReferentialAction.readsBack.optional (hfields "on_update")
      simp [ofJson?, Json.fields?, htable, htableRead, hcolumns, hcolumnsRead, hdelete, hupdate]

/-- Kinds of constraints are read back. -/
theorem ConstraintKind.readsBack : ReadsBack toJson ofJson? where
  ne_null kind := by cases kind <;> nofun
  decode_eq := by
    intro kind value h
    cases kind with
    | foreignKey reference =>
      obtain ⟨body, rfl, hbody⟩ := h.tagged nofun
      simp [ofJson?, Json.variant?, Json.tagged, ForeignKey.readsBack.decode_eq hbody]
    | _ =>
      cases h
      rfl

/-- Constraints are read back. -/
theorem Constraint.readsBack : ReadsBack toJson ofJson? where
  ne_null _ := nofun
  decode_eq := by
    intro constraint value h
    cases h with
    | object each =>
      have hfields := each.lookup (by simp)
      have hname := Json.readsBack_string.optional (hfields "name")
      obtain ⟨_, hkind, hkindRead⟩ := ConstraintKind.readsBack.field (hfields "kind")
      obtain ⟨_, hcolumns, hcolumnsRead⟩ := Json.readsBack_strings.field (hfields "columns")
      obtain ⟨_, hdeferrable, hdeferrableRead⟩ :=
        Json.readsBack_bool.field (hfields "deferrable")
      obtain ⟨_, hdeferred, hdeferredRead⟩ :=
        Json.readsBack_bool.field (hfields "initially_deferred")
      obtain ⟨_, hinherit, hinheritRead⟩ := Json.readsBack_bool.field (hfields "no_inherit")
      have hraw := Json.readsBack_string.optional (hfields "raw_expression")
      have hcooked := Json.readsBack_string.optional (hfields "cooked_expression")
      simp only [ofJson?, Json.fields?, List.map_cons, List.map_nil, Option.pure_def,
        Option.bind_eq_bind, Option.bind_some, hname, hkind, hkindRead, hcolumns, hcolumnsRead,
        hdeferrable, hdeferrableRead, hdeferred, hdeferredRead, hinherit, hinheritRead, hraw,
        hcooked]

namespace Statement

/-- Statements are read back. -/
theorem readsBack : ReadsBack toJson ofJson? where
  ne_null statement := by cases statement <;> nofun
  decode_eq := by
    intro statement value h
    cases statement with
    | createTable table =>
      obtain ⟨body, rfl, hbody⟩ := h.tagged nofun
      cases hbody with
      | object each =>
        have hfields := each.lookup (by simp)
        obtain ⟨_, hname, hnameRead⟩ := ObjectName.readsBack.field (hfields "name")
        obtain ⟨_, hexists, hexistsRead⟩ := Json.readsBack_bool.field (hfields "if_not_exists")
        obtain ⟨_, hcolumns, hcolumnsRead⟩ :=
          Column.readsBack.list.field (hfields "columns")
        obtain ⟨_, hconstraints, hconstraintsRead⟩ :=
          Constraint.readsBack.list.field (hfields "constraints")
        simp [ofJson?, Json.variant?, Json.tagged, Json.fields?, hname, hnameRead, hexists,
          hexistsRead, hcolumns, hcolumnsRead, hconstraints, hconstraintsRead]
    | createSchema schema =>
      obtain ⟨body, rfl, hbody⟩ := h.tagged nofun
      cases hbody with
      | object each =>
        have hfields := each.lookup (by simp)
        obtain ⟨_, hname, hnameRead⟩ := ObjectName.readsBack.field (hfields "name")
        obtain ⟨_, hexists, hexistsRead⟩ := Json.readsBack_bool.field (hfields "if_not_exists")
        simp [ofJson?, Json.variant?, Json.tagged, Json.fields?, hname, hnameRead, hexists,
          hexistsRead]
    | dropTable removal =>
      obtain ⟨body, rfl, hbody⟩ := h.tagged nofun
      cases hbody with
      | object each =>
        have hfields := each.lookup (by simp)
        obtain ⟨_, hname, hnameRead⟩ := ObjectName.readsBack.field (hfields "name")
        obtain ⟨_, hexists, hexistsRead⟩ := Json.readsBack_bool.field (hfields "if_exists")
        obtain ⟨_, hcascade, hcascadeRead⟩ := Json.readsBack_bool.field (hfields "cascade")
        simp [ofJson?, Json.variant?, Json.tagged, Json.fields?, hname, hnameRead, hexists,
          hexistsRead, hcascade, hcascadeRead]

/-- Every statement is read back from the JSON value that it is written as, and also where members
that are `null` are left out of it. So no two statements are written as the same value. -/
theorem ofJson?_toJson :
    (∀ statement : Statement, ofJson? statement.toJson = some statement) ∧
    (∀ (statement : Statement) (value : Json), statement.toJson.AbridgedTo value →
      ofJson? value = some statement) ∧
    ∀ statement other : Statement, statement.toJson = other.toJson → statement = other :=
  ⟨readsBack.decode_encode, fun _ _ h => readsBack.decode_eq h, fun _ _ h => readsBack.injective h⟩

/-- A table with a column whose default is the constant `NULL`. -/
def nullDefault : Statement :=
  .createTable ⟨⟨["t"]⟩, false, [⟨"a", .text, none, some (.literal .null), false⟩], []⟩

/-- The JSON value of this table without the collation that its column lacks. -/
def nullDefaultAbridged : Json :=
  .tagged "CreateTable" (.object
    [("name", .ofStrings ["t"]), ("if_not_exists", .bool false),
     ("columns", .array [.object
       [("name", .string "a"), ("data_type", .string "Text"),
        ("default", .tagged "Literal" (.string "Null")), ("not_null", .bool false)]]),
     ("constraints", .array [])])

/-- The collation is left out and the default is not, so that the table is read back from both
values. -/
theorem ofJson?_toJson_nullDefault :
    ofJson? nullDefault.toJson = some nullDefault ∧
    nullDefault.toJson.AbridgedTo nullDefaultAbridged ∧
    ofJson? nullDefaultAbridged = some nullDefault := by
  have hcolumn : (Column.toJson ⟨"a", .text, none, some (.literal .null), false⟩).AbridgedTo
      (.object [("name", .string "a"), ("data_type", .string "Text"),
        ("default", .tagged "Literal" (.string "Null")), ("not_null", .bool false)]) :=
    .object (.keep (.refl _) (.keep (.refl _) (.leaveOut (.refl _))))
  have habridged : nullDefault.toJson.AbridgedTo nullDefaultAbridged :=
    .object (.keep (.object (.keep (.refl _) (.keep (.refl _)
      (.keep (.array (.cons hcolumn .nil)) (.refl _))))) .nil)
  exact ⟨ofJson?_toJson.1 _, habridged, ofJson?_toJson.2.1 _ _ habridged⟩

end Statement

end SqlDdl
