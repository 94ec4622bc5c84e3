namespace OpenCLTree

/-- The roles a child can have in its node. -/
inductive Field
  | type | declarator | body | extension | behavior | version | directive | name | arguments
  | value | size | parameters | designator | condition | consequence | alternative
  | initializer | update | label | left | right | operator | argument | function | index
  | member | accessor
  deriving DecidableEq

namespace Field

def text : Field → String
  | .type => "type"
  | .declarator => "declarator"
  | .body => "body"
  | .extension => "extension"
  | .behavior => "behavior"
  | .version => "version"
  | .directive => "directive"
  | .name => "name"
  | .arguments => "arguments"
  | .value => "value"
  | .size => "size"
  | .parameters => "parameters"
  | .designator => "designator"
  | .condition => "condition"
  | .consequence => "consequence"
  | .alternative => "alternative"
  | .initializer => "initializer"
  | .update => "update"
  | .label => "label"
  | .left => "left"
  | .right => "right"
  | .operator => "operator"
  | .argument => "argument"
  | .function => "function"
  | .index => "index"
  | .member => "field"
  | .accessor => "accessor"

def all : List Field := [
  .type, .declarator, .body, .extension, .behavior, .version, .directive, .name, .arguments,
  .value, .size, .parameters, .designator, .condition, .consequence, .alternative,
  .initializer, .update, .label, .left, .right, .operator, .argument, .function, .index,
  .member, .accessor]

def ofText? (text : String) : Option Field :=
  all.find? (·.text == text)

end Field

end OpenCLTree
