/-!
# Tables

A source table names an interface of the source service and is staged into one loading table. Its
columns are found out from its records.
-/

namespace Staging.Schema

/-- The types that a staged field can take. -/
inductive ColumnType
  | id
  | boolean
  | bigint
  | numeric
  | timestamptz
  | varchar
  deriving DecidableEq, Repr, Inhabited

def ColumnType.name : ColumnType → String
  | .id => "id"
  | .boolean => "boolean"
  | .bigint => "bigint"
  | .numeric => "numeric"
  | .timestamptz => "timestamptz"
  | .varchar => "varchar"

/-- The type as SQL declares it. -/
def ColumnType.sql : ColumnType → String
  | .id => "VARCHAR(36)"
  | .boolean => "BOOLEAN"
  | .bigint => "BIGINT"
  | .numeric => "DOUBLE PRECISION"
  | .timestamptz => "TIMESTAMPTZ"
  | .varchar => "VARCHAR(65535)"

def ColumnType.all : List ColumnType := [.id, .boolean, .bigint, .numeric, .timestamptz, .varchar]

def ColumnType.ofName? (name : String) : Option ColumnType := all.find? (·.name == name)

/-- A column and the field it is filled from. -/
structure Column where
  name : String
  source : String
  type : ColumnType
  deriving DecidableEq, Repr, Inhabited

/-- A source table. -/
structure Table where
  name : String
  sourcePath : String
  moduleName : String
  /-- Set when nothing was extracted for the table. -/
  skip : Bool := false
  columns : List Column := []
  deriving DecidableEq, Repr, Inhabited

/-- The first column of type `id`. -/
def Table.idColumn? (t : Table) : Option Column := t.columns.find? (·.type == .id)

/-! ## Catalog -/

/-- The tables of a run, in order. -/
def catalog : List Table := [
  { name := "circulation_cancellation_reasons"
    sourcePath := "/cancellation-reason-storage/cancellation-reasons"
    moduleName := "mod-circulation-storage" },
  { name := "circulation_fixed_due_date_schedules"
    sourcePath := "/fixed-due-date-schedule-storage/fixed-due-date-schedules"
    moduleName := "mod-circulation-storage" },
  { name := "circulation_loan_policies"
    sourcePath := "/loan-policy-storage/loan-policies"
    moduleName := "mod-circulation-storage" },
  { name := "circulation_loans"
    sourcePath := "/loan-storage/loans"
    moduleName := "mod-circulation-storage" },
  { name := "circulation_requests"
    sourcePath := "/request-storage/requests"
    moduleName := "mod-circulation-storage" },
  { name := "finance_funds"
    sourcePath := "/finance-storage/funds"
    moduleName := "mod-finance-storage" },
  { name := "finance_ledgers"
    sourcePath := "/finance-storage/ledgers"
    moduleName := "mod-finance-storage" },
  { name := "inventory_holdings"
    sourcePath := "/holdings-storage/holdings"
    moduleName := "mod-inventory-storage" },
  { name := "inventory_instances"
    sourcePath := "/instance-storage/instances"
    moduleName := "mod-inventory-storage" },
  { name := "inventory_items"
    sourcePath := "/item-storage/items"
    moduleName := "mod-inventory-storage" },
  { name := "inventory_locations"
    sourcePath := "/locations"
    moduleName := "mod-inventory-storage" },
  { name := "inventory_material_types"
    sourcePath := "/material-types"
    moduleName := "mod-inventory-storage" },
  { name := "po_purchase_orders"
    sourcePath := "/orders-storage/purchase-orders"
    moduleName := "mod-orders-storage" },
  { name := "erm_agreements"
    sourcePath := "/erm/sas"
    moduleName := "mod-agreements" },
  { name := "user_groups"
    sourcePath := "/groups"
    moduleName := "mod-users" },
  { name := "user_users"
    sourcePath := "/users"
    moduleName := "mod-users" }]

end Staging.Schema
