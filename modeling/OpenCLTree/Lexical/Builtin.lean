namespace OpenCLTree

/-- The groups of built-in functions. -/
inductive BuiltinCategory
  | workItem | atomic | synchronization | math | image | vectorData
  deriving DecidableEq

namespace BuiltinCategory

def name : BuiltinCategory → String
  | .workItem => "WorkItem"
  | .atomic => "Atomic"
  | .synchronization => "Synchronization"
  | .math => "Math"
  | .image => "Image"
  | .vectorData => "VectorData"

end BuiltinCategory

def workItemFunctions : List String := [
  "get_work_dim", "get_global_size", "get_global_id", "get_local_size",
  "get_enqueued_local_size", "get_local_id", "get_num_groups", "get_group_id",
  "get_global_offset", "get_global_linear_id", "get_local_linear_id", "get_sub_group_size",
  "get_max_sub_group_size", "get_num_sub_groups", "get_sub_group_id", "get_sub_group_local_id"]

def synchronizationFunctions : List String := [
  "barrier", "work_group_barrier", "sub_group_barrier", "mem_fence", "read_mem_fence",
  "write_mem_fence", "atomic_work_item_fence", "async_work_group_copy",
  "async_work_group_strided_copy", "wait_group_events", "prefetch"]

def atomicFunctions : List String := [
  "atomic_add", "atomic_sub", "atomic_xchg", "atomic_inc", "atomic_dec", "atomic_cmpxchg",
  "atomic_min", "atomic_max", "atomic_and", "atomic_or", "atomic_xor", "atom_add", "atom_sub",
  "atom_xchg", "atom_inc", "atom_dec", "atom_cmpxchg", "atom_min", "atom_max", "atom_and",
  "atom_or", "atom_xor", "atomic_init", "atomic_store", "atomic_load", "atomic_exchange",
  "atomic_compare_exchange_strong", "atomic_compare_exchange_weak", "atomic_fetch_add",
  "atomic_fetch_sub", "atomic_fetch_or", "atomic_fetch_xor", "atomic_fetch_and",
  "atomic_fetch_min", "atomic_fetch_max", "atomic_flag_test_and_set", "atomic_flag_clear"]

def mathFunctions : List String := [
  "acos", "acosh", "acospi", "asin", "asinh", "asinpi", "atan", "atan2", "atanh", "atanpi",
  "atan2pi", "cbrt", "ceil", "copysign", "cos", "cosh", "cospi", "erfc", "erf", "exp", "exp2",
  "exp10", "expm1", "fabs", "fdim", "floor", "fma", "fmax", "fmin", "fmod", "fract", "frexp",
  "hypot", "ilogb", "ldexp", "lgamma", "lgamma_r", "log", "log2", "log10", "log1p", "logb",
  "mad", "maxmag", "minmag", "modf", "nan", "nextafter", "pow", "pown", "powr", "remainder",
  "remquo", "rint", "rootn", "round", "rsqrt", "sin", "sincos", "sinh", "sinpi", "sqrt", "tan",
  "tanh", "tanpi", "tgamma", "trunc", "half_cos", "half_divide", "half_exp", "half_exp2",
  "half_exp10", "half_log", "half_log2", "half_log10", "half_powr", "half_recip", "half_rsqrt",
  "half_sin", "half_sqrt", "half_tan", "native_cos", "native_divide", "native_exp",
  "native_exp2", "native_exp10", "native_log", "native_log2", "native_log10", "native_powr",
  "native_recip", "native_rsqrt", "native_sin", "native_sqrt", "native_tan", "abs", "abs_diff",
  "add_sat", "hadd", "rhadd", "clamp", "clz", "ctz", "mad_hi", "mad_sat", "max", "min",
  "mul_hi", "rotate", "sub_sat", "upsample", "popcount", "mad24", "mul24", "degrees", "mix",
  "radians", "step", "smoothstep", "sign", "cross", "dot", "distance", "length", "normalize",
  "fast_distance", "fast_length", "fast_normalize", "isequal", "isnotequal", "isgreater",
  "isgreaterequal", "isless", "islessequal", "islessgreater", "isfinite", "isinf", "isnan",
  "isnormal", "isordered", "isunordered", "signbit", "any", "all", "bitselect", "select"]

def imageFunctions : List String := [
  "read_imagef", "read_imagei", "read_imageui", "read_imageh", "write_imagef", "write_imagei",
  "write_imageui", "write_imageh", "get_image_width", "get_image_height", "get_image_depth",
  "get_image_channel_data_type", "get_image_channel_order", "get_image_dim",
  "get_image_array_size", "get_image_num_samples", "get_image_num_mip_levels"]

/-- The stems of the functions that load and store vectors, and whether a vector size has to
follow and whether a rounding mode may. -/
def vectorDataStems : List (String × Bool × Bool) := [
  ("vloada_half", false, false), ("vstorea_half", false, true), ("vload_half", false, false),
  ("vstore_half", false, true), ("vload", true, false), ("vstore", true, true)]

def vectorSizes : List String := ["2", "3", "4", "8", "16"]

def roundingModes : List String := ["rte", "rtz", "rtp", "rtn"]

/-- Whether a name is a stem with a vector size and, after an underscore, a rounding mode,
such as `vload4` or `vstore_half8_rte`. -/
def isVectorDataFunction (name : String) : Bool :=
  vectorDataStems.any fun (stem, sized, rounds) =>
    stem.toList.isPrefixOf name.toList &&
      let tail := name.toList.drop stem.length
      let size := String.ofList (tail.takeWhile (· != '_'))
      (vectorSizes.contains size || (!sized && size == "")) &&
        match tail.dropWhile (· != '_') with
        | [] => true
        | _ :: mode => rounds && roundingModes.contains (String.ofList mode)

def builtinCategory? (name : String) : Option BuiltinCategory :=
  if workItemFunctions.contains name then some .workItem
  else if synchronizationFunctions.contains name then some .synchronization
  else if atomicFunctions.contains name then some .atomic
  else if mathFunctions.contains name then some .math
  else if imageFunctions.contains name then some .image
  else if isVectorDataFunction name then some .vectorData
  else none

end OpenCLTree
