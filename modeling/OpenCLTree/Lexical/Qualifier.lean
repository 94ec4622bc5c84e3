namespace OpenCLTree

/-- Declaration qualifiers; the spellings with and without underscores are one qualifier. -/
inductive Qualifier
  | typedef | external | static | auto | register | const | volatile | restrict | inline
  | globalSpace | localSpace | privateSpace | constantSpace | genericSpace | readOnly
  | writeOnly | readWrite | kernel
  deriving DecidableEq

/-- A declaration has at most one qualifier of each category. -/
inductive QualifierCategory
  | storageClass | const | volatile | restrict | inline | addressSpace | access | kernel
  deriving DecidableEq

namespace QualifierCategory

def name : QualifierCategory → String
  | .storageClass => "StorageClass"
  | .const => "Const"
  | .volatile => "Volatile"
  | .restrict => "Restrict"
  | .inline => "Inline"
  | .addressSpace => "AddressSpace"
  | .access => "Access"
  | .kernel => "Kernel"

/-- How messages refer to the category. -/
def description : QualifierCategory → String
  | .storageClass => "storage class"
  | .const => "const"
  | .volatile => "volatile"
  | .restrict => "restrict"
  | .inline => "inline"
  | .addressSpace => "address space"
  | .access => "access"
  | .kernel => "kernel"

def all : List QualifierCategory := [
  .storageClass, .const, .volatile, .restrict, .inline, .addressSpace, .access, .kernel]

def ofName? (name : String) : Option QualifierCategory :=
  all.find? (·.name == name)

end QualifierCategory

namespace Qualifier

def name : Qualifier → String
  | .typedef => "Typedef"
  | .external => "Extern"
  | .static => "Static"
  | .auto => "Auto"
  | .register => "Register"
  | .const => "Const"
  | .volatile => "Volatile"
  | .restrict => "Restrict"
  | .inline => "Inline"
  | .globalSpace => "Global"
  | .localSpace => "Local"
  | .privateSpace => "Private"
  | .constantSpace => "Constant"
  | .genericSpace => "Generic"
  | .readOnly => "ReadOnly"
  | .writeOnly => "WriteOnly"
  | .readWrite => "ReadWrite"
  | .kernel => "Kernel"

/-- How messages refer to the qualifier. -/
def description : Qualifier → String
  | .typedef => "`typedef`"
  | .external => "`extern`"
  | .static => "`static`"
  | .auto => "`auto`"
  | .register => "`register`"
  | .const => "`const`"
  | .volatile => "`volatile`"
  | .restrict => "`restrict`"
  | .inline => "`inline`"
  | .globalSpace => "`__global`"
  | .localSpace => "`__local`"
  | .privateSpace => "`__private`"
  | .constantSpace => "`__constant`"
  | .genericSpace => "`__generic`"
  | .readOnly => "`__read_only`"
  | .writeOnly => "`__write_only`"
  | .readWrite => "`__read_write`"
  | .kernel => "`__kernel`"

def category : Qualifier → QualifierCategory
  | .typedef | .external | .static | .auto | .register => .storageClass
  | .const => .const
  | .volatile => .volatile
  | .restrict => .restrict
  | .inline => .inline
  | .globalSpace | .localSpace | .privateSpace | .constantSpace | .genericSpace => .addressSpace
  | .readOnly | .writeOnly | .readWrite => .access
  | .kernel => .kernel

/-- Qualifiers that may follow the `*` of a pointer declarator. -/
def qualifiesPointer (qualifier : Qualifier) : Bool :=
  match qualifier.category with
  | .const | .volatile | .restrict | .addressSpace => true
  | _ => false

/-- Every spelling of every qualifier. -/
def aliases : List (String × Qualifier) := [
  ("typedef", .typedef), ("extern", .external), ("static", .static), ("auto", .auto),
  ("register", .register), ("const", .const), ("__const", .const), ("volatile", .volatile),
  ("__volatile", .volatile), ("restrict", .restrict), ("__restrict", .restrict),
  ("inline", .inline), ("__inline", .inline), ("__global", .globalSpace),
  ("global", .globalSpace), ("__local", .localSpace), ("local", .localSpace),
  ("__private", .privateSpace), ("private", .privateSpace), ("__constant", .constantSpace),
  ("constant", .constantSpace), ("__generic", .genericSpace), ("generic", .genericSpace),
  ("__read_only", .readOnly), ("read_only", .readOnly), ("__write_only", .writeOnly),
  ("write_only", .writeOnly), ("__read_write", .readWrite), ("read_write", .readWrite),
  ("__kernel", .kernel), ("kernel", .kernel)]

def ofSpelling? (spelling : String) : Option Qualifier :=
  aliases.lookup spelling

end Qualifier

end OpenCLTree
