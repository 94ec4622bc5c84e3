namespace OpenCLTree

/-- The reserved words that are not qualifiers. A family whose members the grammar never
tells apart, such as the image types, is one keyword. -/
inductive Keyword
  | attributeKw | void | char | short | int | long | float | double | signed | unsigned
  | scalarType | vectorType | imageType | samplerType | opaqueType | pipe | struct | union
  | enum | ifKw | elseKw | whileKw | doKw | forKw | switchKw | caseKw | defaultKw | breakKw
  | continueKw | returnKw | gotoKw | sizeof | alignof | vecStep
  deriving DecidableEq

namespace Keyword

def name : Keyword → String
  | .attributeKw => "Attribute"
  | .void => "Void"
  | .char => "Char"
  | .short => "Short"
  | .int => "Int"
  | .long => "Long"
  | .float => "Float"
  | .double => "Double"
  | .signed => "Signed"
  | .unsigned => "Unsigned"
  | .scalarType => "ScalarType"
  | .vectorType => "VectorType"
  | .imageType => "ImageType"
  | .samplerType => "SamplerType"
  | .opaqueType => "OpaqueType"
  | .pipe => "Pipe"
  | .struct => "Struct"
  | .union => "Union"
  | .enum => "Enum"
  | .ifKw => "If"
  | .elseKw => "Else"
  | .whileKw => "While"
  | .doKw => "Do"
  | .forKw => "For"
  | .switchKw => "Switch"
  | .caseKw => "Case"
  | .defaultKw => "Default"
  | .breakKw => "Break"
  | .continueKw => "Continue"
  | .returnKw => "Return"
  | .gotoKw => "Goto"
  | .sizeof => "Sizeof"
  | .alignof => "Alignof"
  | .vecStep => "VecStep"

/-- How messages refer to the keyword. -/
def description : Keyword → String
  | .attributeKw => "`__attribute__`"
  | .void => "`void`"
  | .char => "`char`"
  | .short => "`short`"
  | .int => "`int`"
  | .long => "`long`"
  | .float => "`float`"
  | .double => "`double`"
  | .signed => "`signed`"
  | .unsigned => "`unsigned`"
  | .scalarType => "scalar type"
  | .vectorType => "vector type"
  | .imageType => "image type"
  | .samplerType => "`sampler_t`"
  | .opaqueType => "opaque type"
  | .pipe => "`pipe`"
  | .struct => "`struct`"
  | .union => "`union`"
  | .enum => "`enum`"
  | .ifKw => "`if`"
  | .elseKw => "`else`"
  | .whileKw => "`while`"
  | .doKw => "`do`"
  | .forKw => "`for`"
  | .switchKw => "`switch`"
  | .caseKw => "`case`"
  | .defaultKw => "`default`"
  | .breakKw => "`break`"
  | .continueKw => "`continue`"
  | .returnKw => "`return`"
  | .gotoKw => "`goto`"
  | .sizeof => "`sizeof`"
  | .alignof => "`_Alignof`"
  | .vecStep => "`vec_step`"

/-- Every spelling of a keyword other than the vector types, which are a family of their own. -/
def spellings : List (String × Keyword) := [
  ("__attribute__", .attributeKw), ("__attribute", .attributeKw), ("void", .void),
  ("char", .char), ("short", .short), ("int", .int), ("long", .long), ("float", .float),
  ("double", .double), ("signed", .signed), ("unsigned", .unsigned), ("bool", .scalarType),
  ("_Bool", .scalarType), ("uchar", .scalarType), ("ushort", .scalarType),
  ("uint", .scalarType), ("ulong", .scalarType), ("half", .scalarType),
  ("size_t", .scalarType), ("ptrdiff_t", .scalarType), ("intptr_t", .scalarType),
  ("uintptr_t", .scalarType), ("image1d_t", .imageType), ("image1d_array_t", .imageType),
  ("image1d_buffer_t", .imageType), ("image2d_t", .imageType), ("image2d_array_t", .imageType),
  ("image2d_depth_t", .imageType), ("image2d_array_depth_t", .imageType),
  ("image3d_t", .imageType), ("sampler_t", .samplerType), ("event_t", .opaqueType),
  ("queue_t", .opaqueType), ("clk_event_t", .opaqueType), ("reserve_id_t", .opaqueType),
  ("ndrange_t", .opaqueType), ("pipe", .pipe), ("struct", .struct), ("union", .union),
  ("enum", .enum), ("if", .ifKw), ("else", .elseKw), ("while", .whileKw), ("do", .doKw),
  ("for", .forKw), ("switch", .switchKw), ("case", .caseKw), ("default", .defaultKw),
  ("break", .breakKw), ("continue", .continueKw), ("return", .returnKw), ("goto", .gotoKw),
  ("sizeof", .sizeof), ("_Alignof", .alignof), ("__alignof__", .alignof),
  ("vec_step", .vecStep)]

end Keyword

end OpenCLTree
