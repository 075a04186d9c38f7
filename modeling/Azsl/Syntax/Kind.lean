/-
Azsl.Syntax.Kind — the kinds of syntax nodes.

Every rule of the grammar has a kind of its own; punctuation and keywords all share `token`.
The written names are what queries and printed trees use.
-/

namespace Azsl

/-- What a node of the syntax tree stands for. -/
inductive NodeKind where
  | sourceFile
  | token
  | error
  | comment
  | preprocDirective
  | includeStatement
  | includeFile
  | attributedSrgDefinition
  | srgDefinition
  | srgMemberDeclaration
  | attributedSrgSemantic
  | srgSemantic
  | srgSemanticBodyDeclaration
  | srgSemanticMemberDeclaration
  | expression
  | expressionExt
  | prefixUnaryOperator
  | postfixUnaryOperator
  | binaryOperator
  | assignmentOperator
  | idExpression
  | identifier
  | argumentList
  | variableDeclarationStatement
  | variableDeclaration
  | variableDeclarators
  | namedVariableDecorator
  | arrayRankSpecifier
  | hlslSemantic
  | hlslSemanticStream
  | hlslSemanticSystem
  | packOffsetNode
  | registerAllocation
  | variableInitializer
  | standardVariableInitializer
  | arrayElementInitializers
  | attributeSpecifierAny
  | attributeSpecifier
  | attributeSpecifierSequence
  | attributeArguments
  | attributeArgumentList
  | attributeName
  | samplerBodyDeclaration
  | samplerMemberDeclaration
  | filterModeEnum
  | reductionTypeEnum
  | addressModeEnum
  | comparisonFunctionEnum
  | borderColorEnum
  | anyStructuredTypeDefinition
  | anyStructuredTypeDefinitionStatement
  | classDefinition
  | baseList
  | classMemberDeclaration
  | interfaceDefinition
  | interfaceMemberDeclaration
  | structDefinitionStatement
  | structDefinition
  | structMemberDeclaration
  | enumDefinitionStatement
  | enumDefinition
  | enumKey
  | enumeratorListDefinition
  | enumeratorDeclarator
  | associatedTypeDeclaration
  | attributedFunctionDeclaration
  | attributedFunctionDefinition
  | functionDeclaration
  | functionDefinition
  | leadingTypeFunctionSignature
  | genericParameterList
  | genericTypeDefinition
  | genericConstraint
  | functionParams
  | functionParam
  | block
  | statement
  | embeddedStatement
  | elseClause
  | switchBlock
  | switchSection
  | switchLabel
  | forInitializer
  | compilerExtensionStatement
  | typeofExpression
  | typeAliasingDefinitionStatement
  | typeAliasStatement
  | typedefStatement
  | type
  | userDefinedType
  | predefinedType
  | bufferPredefinedType
  | byteAddressBufferTypes
  | patchPredefinedType
  | bufferType
  | scalarOrVectorOrMatrixType
  | scalarType
  | vectorType
  | matrixType
  | genericMatrixPredefinedType
  | samplerStatePredefinedType
  | streamOutputPredefinedType
  | structuredBufferPredefinedType
  | texturePredefinedType
  | genericTexturePredefinedType
  | msTexturePredefinedType
  | genericVectorType
  | constantBufferTemplated
  | otherViewResourceType
  | subobjectType
  | rtxBuiltInTypes
  | storageFlag
  | literal
  | floatLiteral
  | integerLiteral
  | stringLiteral
  | escapeSequence
deriving DecidableEq, Repr, Inhabited

namespace NodeKind

/-- The written name of a kind. -/
def name : NodeKind → String
  | sourceFile => "source_file"
  | token => "token"
  | error => "ERROR"
  | comment => "comment"
  | preprocDirective => "preproc_directive"
  | includeStatement => "include_statement"
  | includeFile => "include_file"
  | attributedSrgDefinition => "attributed_srg_definition"
  | srgDefinition => "srg_definition"
  | srgMemberDeclaration => "srg_member_declaration"
  | attributedSrgSemantic => "attributed_srg_semantic"
  | srgSemantic => "srg_semantic"
  | srgSemanticBodyDeclaration => "srg_semantic_body_declaration"
  | srgSemanticMemberDeclaration => "srg_semantic_member_declaration"
  | expression => "expression"
  | expressionExt => "expression_ext"
  | prefixUnaryOperator => "prefix_unary_operator"
  | postfixUnaryOperator => "postfix_unary_operator"
  | binaryOperator => "binary_operator"
  | assignmentOperator => "assignment_operator"
  | idExpression => "id_expression"
  | identifier => "identifier"
  | argumentList => "argument_list"
  | variableDeclarationStatement => "variable_declaration_statement"
  | variableDeclaration => "variable_declaration"
  | variableDeclarators => "variable_declarators"
  | namedVariableDecorator => "named_variable_decorator"
  | arrayRankSpecifier => "array_rank_specifier"
  | hlslSemantic => "hlsl_semantic"
  | hlslSemanticStream => "hlsl_semantic_stream"
  | hlslSemanticSystem => "hlsl_semantic_system"
  | packOffsetNode => "pack_offset_node"
  | registerAllocation => "register_allocation"
  | variableInitializer => "variable_initializer"
  | standardVariableInitializer => "standard_variable_initializer"
  | arrayElementInitializers => "array_element_initializers"
  | attributeSpecifierAny => "attribute_specifier_any"
  | attributeSpecifier => "attribute_specifier"
  | attributeSpecifierSequence => "attribute_specifier_sequence"
  | attributeArguments => "attribute_arguments"
  | attributeArgumentList => "attribute_argument_list"
  | attributeName => "attribute"
  | samplerBodyDeclaration => "sampler_body_declaration"
  | samplerMemberDeclaration => "sampler_member_declaration"
  | filterModeEnum => "filter_mode_enum"
  | reductionTypeEnum => "reduction_type_enum"
  | addressModeEnum => "address_mode_enum"
  | comparisonFunctionEnum => "comparison_function_enum"
  | borderColorEnum => "border_color_enum"
  | anyStructuredTypeDefinition => "any_structured_type_definition"
  | anyStructuredTypeDefinitionStatement => "any_structured_type_definition_statement"
  | classDefinition => "class_definition"
  | baseList => "base_list"
  | classMemberDeclaration => "class_member_declaration"
  | interfaceDefinition => "interface_definition"
  | interfaceMemberDeclaration => "interface_member_declaration"
  | structDefinitionStatement => "struct_definition_statement"
  | structDefinition => "struct_definition"
  | structMemberDeclaration => "struct_member_declaration"
  | enumDefinitionStatement => "enum_definition_statement"
  | enumDefinition => "enum_definition"
  | enumKey => "enum_key"
  | enumeratorListDefinition => "enumerator_list_definition"
  | enumeratorDeclarator => "enumerator_declarator"
  | associatedTypeDeclaration => "associated_type_declaration"
  | attributedFunctionDeclaration => "attributed_function_declaration"
  | attributedFunctionDefinition => "attributed_function_definition"
  | functionDeclaration => "function_declaration"
  | functionDefinition => "function_definition"
  | leadingTypeFunctionSignature => "leading_type_function_signature"
  | genericParameterList => "generic_parameter_list"
  | genericTypeDefinition => "generic_type_definition"
  | genericConstraint => "generic_constraint"
  | functionParams => "function_params"
  | functionParam => "function_param"
  | block => "block"
  | statement => "statement"
  | embeddedStatement => "embedded_statement"
  | elseClause => "else_clause"
  | switchBlock => "switch_block"
  | switchSection => "switch_section"
  | switchLabel => "switch_label"
  | forInitializer => "for_initializer"
  | compilerExtensionStatement => "compiler_extension_statement"
  | typeofExpression => "typeof_expression"
  | typeAliasingDefinitionStatement => "type_aliasing_definition_statement"
  | typeAliasStatement => "type_alias_statement"
  | typedefStatement => "typedef_statement"
  | type => "type"
  | userDefinedType => "user_defined_type"
  | predefinedType => "predefined_type"
  | bufferPredefinedType => "buffer_predefined_type"
  | byteAddressBufferTypes => "byte_address_buffer_types"
  | patchPredefinedType => "patch_predefined_type"
  | bufferType => "buffer_type"
  | scalarOrVectorOrMatrixType => "scalar_or_vector_or_matrix_type"
  | scalarType => "scalar_type"
  | vectorType => "vector_type"
  | matrixType => "matrix_type"
  | genericMatrixPredefinedType => "generic_matrix_predefined_type"
  | samplerStatePredefinedType => "sampler_state_predefined_type"
  | streamOutputPredefinedType => "stream_output_predefined_type"
  | structuredBufferPredefinedType => "structured_buffer_predefined_type"
  | texturePredefinedType => "texture_predefined_type"
  | genericTexturePredefinedType => "generic_texture_predefined_type"
  | msTexturePredefinedType => "ms_texture_predefined_type"
  | genericVectorType => "generic_vector_type"
  | constantBufferTemplated => "constant_buffer_templated"
  | otherViewResourceType => "other_view_resource_type"
  | subobjectType => "subobject_type"
  | rtxBuiltInTypes => "rtx_built_in_types"
  | storageFlag => "storage_flag"
  | literal => "literal"
  | floatLiteral => "float_literal"
  | integerLiteral => "integer_literal"
  | stringLiteral => "string_literal"
  | escapeSequence => "escape_sequence"

/-- Every kind, in the order of their declaration. -/
def all : List NodeKind :=
  [.sourceFile, .token, .error, .comment, .preprocDirective, .includeStatement, .includeFile,
   .attributedSrgDefinition, .srgDefinition, .srgMemberDeclaration, .attributedSrgSemantic,
   .srgSemantic, .srgSemanticBodyDeclaration, .srgSemanticMemberDeclaration, .expression,
   .expressionExt, .prefixUnaryOperator, .postfixUnaryOperator, .binaryOperator,
   .assignmentOperator, .idExpression, .identifier, .argumentList, .variableDeclarationStatement,
   .variableDeclaration, .variableDeclarators, .namedVariableDecorator, .arrayRankSpecifier,
   .hlslSemantic, .hlslSemanticStream, .hlslSemanticSystem, .packOffsetNode, .registerAllocation,
   .variableInitializer, .standardVariableInitializer, .arrayElementInitializers,
   .attributeSpecifierAny, .attributeSpecifier, .attributeSpecifierSequence, .attributeArguments,
   .attributeArgumentList, .attributeName, .samplerBodyDeclaration, .samplerMemberDeclaration,
   .filterModeEnum, .reductionTypeEnum, .addressModeEnum, .comparisonFunctionEnum,
   .borderColorEnum, .anyStructuredTypeDefinition, .anyStructuredTypeDefinitionStatement,
   .classDefinition, .baseList, .classMemberDeclaration, .interfaceDefinition,
   .interfaceMemberDeclaration, .structDefinitionStatement, .structDefinition,
   .structMemberDeclaration, .enumDefinitionStatement, .enumDefinition, .enumKey,
   .enumeratorListDefinition, .enumeratorDeclarator, .associatedTypeDeclaration,
   .attributedFunctionDeclaration, .attributedFunctionDefinition, .functionDeclaration,
   .functionDefinition, .leadingTypeFunctionSignature, .genericParameterList,
   .genericTypeDefinition, .genericConstraint, .functionParams, .functionParam, .block,
   .statement, .embeddedStatement, .elseClause, .switchBlock, .switchSection, .switchLabel,
   .forInitializer, .compilerExtensionStatement, .typeofExpression,
   .typeAliasingDefinitionStatement, .typeAliasStatement, .typedefStatement, .type,
   .userDefinedType, .predefinedType, .bufferPredefinedType, .byteAddressBufferTypes,
   .patchPredefinedType, .bufferType, .scalarOrVectorOrMatrixType, .scalarType, .vectorType,
   .matrixType, .genericMatrixPredefinedType, .samplerStatePredefinedType,
   .streamOutputPredefinedType, .structuredBufferPredefinedType, .texturePredefinedType,
   .genericTexturePredefinedType, .msTexturePredefinedType, .genericVectorType,
   .constantBufferTemplated, .otherViewResourceType, .subobjectType, .rtxBuiltInTypes,
   .storageFlag, .literal, .floatLiteral, .integerLiteral, .stringLiteral, .escapeSequence]

/-- The kind with a written name. -/
def ofName? (text : String) : Option NodeKind :=
  all.find? (·.name == text)

/-- Anonymous tokens are not named, every rule is. -/
def isNamed (kind : NodeKind) : Bool :=
  kind != .token

/-- Comments and directives may stand between any two tokens and belong to no rule. -/
def isExtra : NodeKind → Bool
  | comment | preprocDirective => true
  | _ => false

/-- Top level declarations that end on a closing token of their own: what follows them never
changes how they are parsed. -/
def isSelfDelimiting : NodeKind → Bool
  | includeStatement | attributedFunctionDefinition | attributedFunctionDeclaration
  | variableDeclarationStatement | anyStructuredTypeDefinitionStatement
  | attributedSrgDefinition | attributedSrgSemantic | compilerExtensionStatement
  | typeAliasingDefinitionStatement => true
  | _ => false

theorem mem_all (kind : NodeKind) : kind ∈ all := by
  cases kind <;> decide

end NodeKind

end Azsl
