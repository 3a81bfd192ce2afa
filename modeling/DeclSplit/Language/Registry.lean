import DeclSplit.Language

/-!
What is known of each language: its file extensions and the node kinds of its syntax tree that
count as declarations, grouped by what they declare.
-/
namespace DeclSplit

/-- The file extensions of a language and its declaration kinds by category. -/
structure Profile where
  extensions : List String := []
  functions : List String := []
  classes : List String := []
  methods : List String := []
  interfaces : List String := []
  types : List String := []
  imports : List String := []
  bindings : List String := []

/-- The declaration kinds of all categories together. -/
def Profile.kinds (p : Profile) : List String :=
  p.functions ++ p.classes ++ p.methods ++ p.interfaces ++ p.types ++ p.imports ++ p.bindings

/-- The kinds of the untyped script language. -/
def Profile.script : Profile where
  extensions := ["js", "mjs", "cjs", "jsx"]
  functions :=
    ["function_declaration", "generator_function_declaration", "arrow_function",
      "function_expression", "generator_function"]
  classes := ["class_declaration", "class"]
  methods := ["method_definition"]
  imports := ["import_statement"]
  bindings := ["lexical_declaration", "variable_declaration"]

/-- The kinds shared by the typed script languages. -/
def Profile.typedScript (extensions : List String) : Profile where
  extensions := extensions
  functions := Profile.script.functions ++ ["function_signature"]
  classes := Profile.script.classes ++ ["abstract_class_declaration"]
  methods := ["method_definition", "method_signature", "abstract_method_signature"]
  interfaces := ["interface_declaration"]
  types := ["type_alias_declaration", "enum_declaration", "internal_module", "module"]
  imports := Profile.script.imports
  bindings := Profile.script.bindings

/-- The kinds of C, on which C++ builds. -/
def Profile.plainC : Profile where
  extensions := ["c", "h"]
  functions := ["function_definition"]
  classes := ["struct_specifier", "union_specifier", "enum_specifier"]
  types := ["type_definition"]
  imports := ["preproc_include"]

namespace Language

/-- The registry entry of a language. -/
def profile : Language → Profile
  | javaScript => .script
  | typeScript => .typedScript ["ts", "mts", "cts"]
  | tsx => .typedScript ["tsx"]
  | python =>
    { extensions := ["py", "pyi", "pyw"]
      functions := ["function_definition"]
      classes := ["class_definition"]
      imports := ["import_statement", "import_from_statement"] }
  | go =>
    { extensions := ["go"]
      functions := ["function_declaration"]
      methods := ["method_declaration"]
      types := ["type_declaration"]
      imports := ["import_declaration"]
      bindings := ["const_declaration", "var_declaration"] }
  | rust =>
    { extensions := ["rs"]
      functions := ["function_item", "function_signature_item"]
      classes := ["struct_item", "enum_item", "union_item", "impl_item"]
      interfaces := ["trait_item"]
      types := ["type_item", "mod_item", "macro_definition"]
      imports := ["use_declaration"]
      bindings := ["const_item", "static_item"] }
  | java =>
    { extensions := ["java"]
      classes := ["class_declaration", "enum_declaration", "record_declaration"]
      methods := ["method_declaration", "constructor_declaration"]
      interfaces := ["interface_declaration", "annotation_type_declaration"]
      imports := ["import_declaration"]
      bindings := ["field_declaration"] }
  | cSharp =>
    { extensions := ["cs", "csx"]
      classes :=
        ["class_declaration", "struct_declaration", "record_declaration", "enum_declaration"]
      methods := ["method_declaration", "constructor_declaration", "property_declaration"]
      interfaces := ["interface_declaration"]
      types := ["namespace_declaration", "file_scoped_namespace_declaration"]
      imports := ["using_directive"] }
  | ruby =>
    { extensions := ["rb", "rake", "gemspec"]
      classes := ["class", "module"]
      methods := ["method", "singleton_method"] }
  | c => .plainC
  | cpp =>
    { extensions := ["cpp", "cxx", "cc", "c++", "hpp", "hxx", "hh", "h++"]
      functions := Profile.plainC.functions
      classes := Profile.plainC.classes ++ ["class_specifier"]
      types := ["type_definition", "namespace_definition"]
      imports := Profile.plainC.imports }
  | html =>
    { extensions := ["html", "htm", "xhtml"]
      classes := ["element", "script_element", "style_element"] }
  | css =>
    { extensions := ["css"]
      classes := ["rule_set"]
      types := ["media_statement", "keyframes_statement"]
      imports := ["import_statement"] }
  | bash =>
    { extensions := ["sh", "bash", "zsh", "ksh"]
      functions := ["function_definition"] }

/-- The node kinds that are declarations of the language. -/
def declarationKinds (l : Language) : List String :=
  l.profile.kinds

/-- The declaration kinds without repetition, in alphabetical order. -/
def sortedKinds (l : Language) : List String :=
  l.declarationKinds.eraseDups.mergeSort (fun a b => decide (a ≤ b))

end Language

end DeclSplit
