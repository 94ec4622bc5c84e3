import OpenCLTree.Syntax.Field

namespace OpenCLTree

/-- The kinds of nodes of a syntax tree. -/
inductive NodeKind
  | sourceFile | error | declaration | typeDefinition | functionDefinition
  | kernelFunctionDefinition | pragmaDirective | versionPragma | pragmaLine | preprocDirective
  | storageClassSpecifier | typeQualifier | addressSpaceQualifier | accessQualifier
  | functionSpecifier | kernelQualifier | attributeSpecifier | attributeEntry | primitiveType
  | sizedTypeSpecifier | vectorType | imageType | samplerType | opaqueType | pipeType
  | typeIdentifier | structSpecifier | unionSpecifier | enumSpecifier | fieldDeclarationList
  | fieldDeclaration | bitfieldClause | enumeratorList | enumerator | initDeclarator
  | pointerDeclarator | parenthesizedDeclarator | arrayDeclarator | functionDeclarator
  | abstractPointerDeclarator | abstractParenthesizedDeclarator | abstractArrayDeclarator
  | abstractFunctionDeclarator | parameterList | parameterDeclaration | variadicParameter
  | typeDescriptor | identifier | fieldIdentifier | initializerList | initializerPair
  | fieldDesignator | subscriptDesignator | compoundStatement | expressionStatement
  | ifStatement | elseClause | whileStatement | doStatement | forStatement | switchStatement
  | caseStatement | returnStatement | breakStatement | continueStatement | gotoStatement
  | labeledStatement | commaExpression | assignmentExpression | conditionalExpression
  | binaryExpression | unaryExpression | pointerExpression | updateExpression | castExpression
  | vectorLiteral | compoundLiteralExpression | sizeofExpression | alignofExpression
  | vecStepExpression | callExpression | builtinFunctionCall | builtinFunction | argumentList
  | subscriptExpression | fieldExpression | swizzleAccess | parenthesizedExpression
  | numberLiteral | charLiteral | stringLiteral | concatenatedString
  deriving DecidableEq

namespace NodeKind

def name : NodeKind → String
  | .sourceFile => "source_file"
  | .error => "ERROR"
  | .declaration => "declaration"
  | .typeDefinition => "type_definition"
  | .functionDefinition => "function_definition"
  | .kernelFunctionDefinition => "kernel_function_definition"
  | .pragmaDirective => "pragma_directive"
  | .versionPragma => "version_pragma"
  | .pragmaLine => "pragma_line"
  | .preprocDirective => "preproc_directive"
  | .storageClassSpecifier => "storage_class_specifier"
  | .typeQualifier => "type_qualifier"
  | .addressSpaceQualifier => "address_space_qualifier"
  | .accessQualifier => "access_qualifier"
  | .functionSpecifier => "function_specifier"
  | .kernelQualifier => "kernel_qualifier"
  | .attributeSpecifier => "attribute_specifier"
  | .attributeEntry => "attribute"
  | .primitiveType => "primitive_type"
  | .sizedTypeSpecifier => "sized_type_specifier"
  | .vectorType => "vector_type"
  | .imageType => "image_type"
  | .samplerType => "sampler_type"
  | .opaqueType => "opaque_type"
  | .pipeType => "pipe_type"
  | .typeIdentifier => "type_identifier"
  | .structSpecifier => "struct_specifier"
  | .unionSpecifier => "union_specifier"
  | .enumSpecifier => "enum_specifier"
  | .fieldDeclarationList => "field_declaration_list"
  | .fieldDeclaration => "field_declaration"
  | .bitfieldClause => "bitfield_clause"
  | .enumeratorList => "enumerator_list"
  | .enumerator => "enumerator"
  | .initDeclarator => "init_declarator"
  | .pointerDeclarator => "pointer_declarator"
  | .parenthesizedDeclarator => "parenthesized_declarator"
  | .arrayDeclarator => "array_declarator"
  | .functionDeclarator => "function_declarator"
  | .abstractPointerDeclarator => "abstract_pointer_declarator"
  | .abstractParenthesizedDeclarator => "abstract_parenthesized_declarator"
  | .abstractArrayDeclarator => "abstract_array_declarator"
  | .abstractFunctionDeclarator => "abstract_function_declarator"
  | .parameterList => "parameter_list"
  | .parameterDeclaration => "parameter_declaration"
  | .variadicParameter => "variadic_parameter"
  | .typeDescriptor => "type_descriptor"
  | .identifier => "identifier"
  | .fieldIdentifier => "field_identifier"
  | .initializerList => "initializer_list"
  | .initializerPair => "initializer_pair"
  | .fieldDesignator => "field_designator"
  | .subscriptDesignator => "subscript_designator"
  | .compoundStatement => "compound_statement"
  | .expressionStatement => "expression_statement"
  | .ifStatement => "if_statement"
  | .elseClause => "else_clause"
  | .whileStatement => "while_statement"
  | .doStatement => "do_statement"
  | .forStatement => "for_statement"
  | .switchStatement => "switch_statement"
  | .caseStatement => "case_statement"
  | .returnStatement => "return_statement"
  | .breakStatement => "break_statement"
  | .continueStatement => "continue_statement"
  | .gotoStatement => "goto_statement"
  | .labeledStatement => "labeled_statement"
  | .commaExpression => "comma_expression"
  | .assignmentExpression => "assignment_expression"
  | .conditionalExpression => "conditional_expression"
  | .binaryExpression => "binary_expression"
  | .unaryExpression => "unary_expression"
  | .pointerExpression => "pointer_expression"
  | .updateExpression => "update_expression"
  | .castExpression => "cast_expression"
  | .vectorLiteral => "vector_literal"
  | .compoundLiteralExpression => "compound_literal_expression"
  | .sizeofExpression => "sizeof_expression"
  | .alignofExpression => "alignof_expression"
  | .vecStepExpression => "vec_step_expression"
  | .callExpression => "call_expression"
  | .builtinFunctionCall => "builtin_function_call"
  | .builtinFunction => "builtin_function"
  | .argumentList => "argument_list"
  | .subscriptExpression => "subscript_expression"
  | .fieldExpression => "field_expression"
  | .swizzleAccess => "swizzle_access"
  | .parenthesizedExpression => "parenthesized_expression"
  | .numberLiteral => "number_literal"
  | .charLiteral => "char_literal"
  | .stringLiteral => "string_literal"
  | .concatenatedString => "concatenated_string"

/-- The fields a node of this kind may have. -/
def fields : NodeKind → List Field
  | .declaration => [.type, .declarator]
  | .typeDefinition => [.type, .declarator]
  | .functionDefinition => [.type, .declarator, .body]
  | .kernelFunctionDefinition => [.type, .declarator, .body]
  | .pragmaDirective => [.extension, .behavior]
  | .versionPragma => [.version]
  | .preprocDirective => [.directive]
  | .attributeEntry => [.name, .arguments]
  | .pipeType => [.type]
  | .structSpecifier => [.name, .body]
  | .unionSpecifier => [.name, .body]
  | .enumSpecifier => [.name, .body]
  | .fieldDeclaration => [.type, .declarator]
  | .enumerator => [.name, .value]
  | .initDeclarator => [.declarator, .value]
  | .pointerDeclarator => [.declarator]
  | .arrayDeclarator => [.declarator, .size]
  | .functionDeclarator => [.declarator, .parameters]
  | .abstractPointerDeclarator => [.declarator]
  | .abstractArrayDeclarator => [.declarator, .size]
  | .abstractFunctionDeclarator => [.declarator, .parameters]
  | .parameterDeclaration => [.type, .declarator]
  | .typeDescriptor => [.type, .declarator]
  | .initializerPair => [.designator, .value]
  | .ifStatement => [.condition, .consequence, .alternative]
  | .whileStatement => [.condition, .body]
  | .doStatement => [.body, .condition]
  | .forStatement => [.initializer, .condition, .update, .body]
  | .switchStatement => [.condition, .body]
  | .caseStatement => [.value]
  | .gotoStatement => [.label]
  | .labeledStatement => [.label]
  | .commaExpression => [.left, .right]
  | .assignmentExpression => [.left, .operator, .right]
  | .conditionalExpression => [.condition, .consequence, .alternative]
  | .binaryExpression => [.left, .operator, .right]
  | .unaryExpression => [.operator, .argument]
  | .pointerExpression => [.operator, .argument]
  | .updateExpression => [.operator, .argument]
  | .castExpression => [.type, .value]
  | .vectorLiteral => [.type, .arguments]
  | .compoundLiteralExpression => [.type, .value]
  | .sizeofExpression => [.type, .value]
  | .alignofExpression => [.type]
  | .vecStepExpression => [.type, .value]
  | .callExpression => [.function, .arguments]
  | .builtinFunctionCall => [.function, .arguments]
  | .subscriptExpression => [.argument, .index]
  | .fieldExpression => [.argument, .operator, .member]
  | .swizzleAccess => [.argument, .accessor]
  | _ => []

/-- The catalog of kinds, in the order in which it is printed. -/
def all : List NodeKind := [
  .sourceFile, .error, .declaration, .typeDefinition, .functionDefinition,
  .kernelFunctionDefinition, .pragmaDirective, .versionPragma, .pragmaLine, .preprocDirective,
  .storageClassSpecifier, .typeQualifier, .addressSpaceQualifier, .accessQualifier,
  .functionSpecifier, .kernelQualifier, .attributeSpecifier, .attributeEntry, .primitiveType,
  .sizedTypeSpecifier, .vectorType, .imageType, .samplerType, .opaqueType, .pipeType,
  .typeIdentifier, .structSpecifier, .unionSpecifier, .enumSpecifier, .fieldDeclarationList,
  .fieldDeclaration, .bitfieldClause, .enumeratorList, .enumerator, .initDeclarator,
  .pointerDeclarator, .parenthesizedDeclarator, .arrayDeclarator, .functionDeclarator,
  .abstractPointerDeclarator, .abstractParenthesizedDeclarator, .abstractArrayDeclarator,
  .abstractFunctionDeclarator, .parameterList, .parameterDeclaration, .variadicParameter,
  .typeDescriptor, .identifier, .fieldIdentifier, .initializerList, .initializerPair,
  .fieldDesignator, .subscriptDesignator, .compoundStatement, .expressionStatement,
  .ifStatement, .elseClause, .whileStatement, .doStatement, .forStatement, .switchStatement,
  .caseStatement, .returnStatement, .breakStatement, .continueStatement, .gotoStatement,
  .labeledStatement, .commaExpression, .assignmentExpression, .conditionalExpression,
  .binaryExpression, .unaryExpression, .pointerExpression, .updateExpression, .castExpression,
  .vectorLiteral, .compoundLiteralExpression, .sizeofExpression, .alignofExpression,
  .vecStepExpression, .callExpression, .builtinFunctionCall, .builtinFunction, .argumentList,
  .subscriptExpression, .fieldExpression, .swizzleAccess, .parenthesizedExpression,
  .numberLiteral, .charLiteral, .stringLiteral, .concatenatedString]

def ofName? (name : String) : Option NodeKind :=
  all.find? (·.name == name)

def hasField (kind : NodeKind) (field : Field) : Bool :=
  kind.fields.contains field

def isQualifier : NodeKind → Bool
  | .storageClassSpecifier | .typeQualifier | .addressSpaceQualifier | .accessQualifier
  | .functionSpecifier | .kernelQualifier => true
  | _ => false

end NodeKind

end OpenCLTree
