import Flowgen.Proofs.ConstructorParameters
import Flowgen.Proofs.InsertedTexts

namespace Flowgen

/-!
# The credential classes that agents need

A class imports the credentials of the providers that its agents name.  Which
agents stand where, and how often, makes no difference.  The method of an
agent looks up a key for its provider by itself, and reads the name of the
provider in a way of its own: it refuses an object that has no value.  Where
it does not refuse, it looks up the key that belongs to the imported class.
-/

open Parameters Template

/-- A name with a word in it, whatever the case. -/
def Provider.Mentions (name word : String) : Prop :=
  Text.contains (Text.lower name) word = true

/-- The credential class for a provider with a name. -/
inductive Provider.HasClass (name : String) : String → Prop where
  | anthropic
      (isAnthropic : Mentions name "anthropic" ∨ Mentions name "claude") :
      HasClass name "AnthropicCredentials"
  | openRouter
      (notAnthropic : ¬ (Mentions name "anthropic" ∨ Mentions name "claude"))
      (isOpenRouter : Mentions name "openrouter") :
      HasClass name "OpenRouterCredentials"
  | openAI
      (notAnthropic : ¬ (Mentions name "anthropic" ∨ Mentions name "claude"))
      (notOpenRouter : ¬ Mentions name "openrouter") :
      HasClass name "OpenAICredentials"

/-- The credential classes, each with the variable that holds the key for it. -/
def Provider.classKeys : List (String × String) :=
  [("AnthropicCredentials", "ANTHROPIC_API_KEY"),
    ("OpenRouterCredentials", "OPENROUTER_API_KEY"),
   ("OpenAICredentials", "OPENAI_API_KEY")]

/-- A name has the class of the provider that it stands for. -/
theorem Provider.hasClass_iff
    {name className : String} :
    HasClass name className ↔ (ofName name).credentialClass = className := by
  have isAnthropic_iff : (Mentions name "anthropic" ∨ Mentions name "claude") ↔
      (Text.contains (Text.lower name) "anthropic" ||
        Text.contains (Text.lower name) "claude") = true := by
    rw [Bool.or_eq_true]
    rfl
  unfold ofName
  dsimp only
  constructor
  · rintro (isAnthropic | ⟨notAnthropic, isOpenRouter⟩ | ⟨notAnthropic,
      notOpenRouter⟩)
    · rw [if_pos (isAnthropic_iff.mp isAnthropic), credentialClass]
    · rw [Mentions] at isOpenRouter
      rw [if_neg (isAnthropic_iff.not.mp notAnthropic), if_pos isOpenRouter,
        credentialClass]
    · rw [Mentions] at notOpenRouter
      rw [if_neg (isAnthropic_iff.not.mp notAnthropic), if_neg notOpenRouter,
        credentialClass]
  · rintro rfl
    split
    · exact .anthropic (isAnthropic_iff.mpr ‹_›)
    · split
      · exact .openRouter (isAnthropic_iff.not.mpr ‹_›) ‹_›
      · exact .openAI (isAnthropic_iff.not.mpr ‹_›) ‹_›

/-- The key that belongs to a class is the one of the same provider. -/
theorem Provider.class_eq_iff_key_eq
    (provider : Provider) :
    ∀ classKey ∈ classKeys,
      provider.credentialClass = classKey.1 ↔
      provider.keyVariable = classKey.2 := by
  cases provider <;> decide

theorem Provider.pairwise_credentialClass :
    (byClass.map credentialClass).Pairwise (· < ·) := by
  decide

namespace Class

variable {node : Value} {nodes others : List Value} {provider : Provider}
  {used : List Provider}

/-- An agent: a node whose type says so. -/
def IsAgent (node : Value) : Prop :=
  TypeMentions node "aiagent" ∨ TypeMentions node "langchain"

/--
The name that parameters give their provider: by itself, or as the value of an
object.
-/
inductive NamesProvider (fields : Fields) : String → Prop where
  | missing
      (noProvider : Fields.get? "provider" fields = none) :
      NamesProvider fields "openai"
  | plain
      {name : String}
      (isText : Fields.get? "provider" fields = some (.text name)) :
      NamesProvider fields name
  | wrapped
      {inner : Fields}
      {name : String}
      (isObject : Fields.get? "provider" fields = some (.object inner))
      (isText : Fields.get? "value" inner = some (.text name)) :
      NamesProvider fields name
  | unnamed
      {inner : Fields}
      (isObject : Fields.get? "provider" fields = some (.object inner))
      (noValue : Fields.get? "value" inner = none) :
      NamesProvider fields "openai"

/-- A node that needs a credential class for the provider that it names. -/
def NeedsClass (node : Value) (className : String) : Prop :=
  ∃ fields name, HasParameters node fields ∧ NamesProvider fields name ∧
    Provider.HasClass name className

theorem NamesProvider.unique
    {fields : Fields}
    {name other : String}
    (names : NamesProvider fields name)
    (alsoNames : NamesProvider fields other) :
    name = other := by
  cases names <;> cases alsoNames <;> simp_all

/-- A node names one provider. -/
theorem needsClass_iff
    {fields : Fields}
    {name className : String}
    (has : HasParameters node fields)
    (names : NamesProvider fields name) :
    NeedsClass node className ↔
    (Provider.ofName name).credentialClass = className := by
  rw [← Provider.hasClass_iff]
  constructor
  · rintro ⟨others, other, alsoHas, alsoNames, hasClass⟩
    obtain rfl := alsoHas.unique has
    rwa [alsoNames.unique names] at hasClass
  · exact fun hasClass => ⟨fields, name, has, names, hasClass⟩

theorem providerOf_eq_ok
    {found : Option Provider}
    (made : providerOf node = .ok found) :
    (found = none ∧ ¬ IsAgent node) ∨
      ∃ fields name, found = some (.ofName name) ∧ IsAgent node ∧
        HasParameters node fields ∧ NamesProvider fields name := by
  obtain ⟨type, isType, made⟩ := bind_eq_ok.mp made
  obtain ⟨parameters, areParameters, made⟩ := bind_eq_ok.mp made
  have isAgent_iff : IsAgent node ↔
      (Text.contains type "aiagent" || Text.contains type "langchain") =
        true := by
    rw [IsAgent, typeMentions_iff isType, typeMentions_iff isType,
      Bool.or_eq_true]
  split at made
  · rename_i isAgent
    obtain ⟨given, isGiven, made⟩ := bind_eq_ok.mp made
    obtain ⟨isObject, givenIs⟩ := Value.get_eq_ok.mp isGiven
    obtain ⟨fields, rfl⟩ : ∃ fields, parameters = .object fields := by
      cases parameters <;> first | exact ⟨_, rfl⟩ | cases isObject
    have namesName :
        ∃ name, found = some (.ofName name) ∧ NamesProvider fields name := by
      cases provided : Fields.get? "provider" fields with
      | none =>
          simp only [Value.field?, provided, Option.getD_none] at givenIs
          subst givenIs
          exact ⟨_, (pure_eq_ok.mp made).symm, .missing provided⟩
      | some value =>
          simp only [Value.field?, provided, Option.getD_some] at givenIs
          subst givenIs
          cases value with
          | text name =>
              exact ⟨name, (pure_eq_ok.mp made).symm, .plain provided⟩
          | object inner =>
              obtain ⟨named, isNamed, made⟩ := bind_eq_ok.mp made
              obtain ⟨name, isName, made⟩ := bind_eq_ok.mp made
              obtain rfl := Value.textFor_eq_ok.mp isName
              refine ⟨name, (pure_eq_ok.mp made).symm, ?_⟩
              have valueIs := (Value.get_eq_ok.mp isNamed).2
              cases inside : Fields.get? "value" inner with
              | none =>
                  simp only [Value.field?, inside, Option.getD_none,
                    Value.text.injEq] at valueIs
                  exact valueIs ▸ .unnamed provided inside
              | some value =>
                  simp only [Value.field?, inside, Option.getD_some] at valueIs
                  exact .wrapped provided (valueIs ▸ inside)
          | _ =>
              cases made
    obtain ⟨name, foundIs, names⟩ := namesName
    exact .inr ⟨fields, name, foundIs, isAgent_iff.mpr isAgent, areParameters,
      names⟩
  · rename_i isNoAgent
    exact .inl ⟨(pure_eq_ok.mp made).symm, isAgent_iff.not.mpr isNoAgent⟩

/--
A node whose provider can be read uses one if it is an agent, of the class
that it needs.
-/
theorem exists_providerOf_iff
    {found : Option Provider}
    {className : String}
    (made : providerOf node = .ok found) :
    (∃ provider, found = some provider ∧ provider.credentialClass = className) ↔
      IsAgent node ∧ NeedsClass node className := by
  obtain ⟨rfl, isNoAgent⟩ | ⟨fields, name, rfl, isAgent, has, names⟩ :=
    providerOf_eq_ok made
  · simp [isNoAgent]
  · simp [isAgent, needsClass_iff has names]

theorem exists_providersOf_iff :
    (∃ used, providersOf nodes = .ok used) ↔
      ∀ node ∈ nodes, ∃ found, providerOf node = .ok found := by
  induction nodes with
  | nil =>
      simp [providersOf]
  | cons node nodes inductionHypothesis =>
      rw [List.forall_mem_cons, ← inductionHypothesis]
      constructor
      · rintro ⟨used, made⟩
        obtain ⟨found, isFound, made⟩ := bind_eq_ok.mp made
        obtain ⟨rest, areRest, _⟩ := bind_eq_ok.mp made
        exact ⟨⟨found, isFound⟩, rest, areRest⟩
      · rintro ⟨⟨found, isFound⟩, rest, areRest⟩
        refine ⟨found.toList ++ rest, ?_⟩
        rw [providersOf, isFound, areRest]
        rfl

theorem mem_providersOf
    (made : providersOf nodes = .ok used) :
    provider ∈ used ↔
    ∃ node ∈ nodes, providerOf node = .ok (some provider) := by
  induction nodes generalizing used with
  | nil =>
      cases made
      simp
  | cons node nodes inductionHypothesis =>
      obtain ⟨found, isFound, made⟩ := bind_eq_ok.mp made
      obtain ⟨rest, areRest, made⟩ := bind_eq_ok.mp made
      obtain rfl := pure_eq_ok.mp made
      rw [List.mem_append, inductionHypothesis areRest,
        List.exists_mem_cons_iff, isFound, Option.mem_toList, Except.ok.injEq]

/-- The providers that are needed, in the order of their classes. -/
def neededOf (used : List Provider) : List Provider :=
  Provider.byClass.filter used.contains

theorem mem_neededOf :
    provider ∈ neededOf used ↔ provider ∈ used := by
  have known : provider ∈ Provider.byClass := by
    cases provider <;> decide
  rw [neededOf, List.mem_filter, List.contains_iff_mem]
  exact and_iff_right known

/-- Providers are needed in any order and number. -/
theorem neededOf_eq_of_mem_iff
    {others : List Provider}
    (same : ∀ provider, provider ∈ others ↔ provider ∈ used) :
    neededOf others = neededOf used := by
  refine List.filter_congr fun provider _ => ?_
  rw [Bool.eq_iff_iff, List.contains_iff_mem, List.contains_iff_mem, same]

/-- The lines for credentials are those of the needed providers. -/
theorem imports_eq
    {language : String}
    {workflow value : Value}
    (isValue : workflow.get "nodes" (.list []) = .ok value)
    (areNodes : value.elements = .ok nodes)
    (areUsed : providersOf nodes = .ok used) :
    imports language workflow = .ok (Text.ofLines
      (((neededOf used).map Provider.credentialClass).map
        (importLine language))) := by
  simp only [imports, isValue, areNodes, areUsed, bind, Except.bind, pure,
    Except.pure, neededOf, List.map_map]
  rfl

/--
The classes of needed providers are those that agents need, in order and each
once.
-/
theorem mem_classes_iff
    {className : String}
    (areUsed : providersOf nodes = .ok used) :
    className ∈ (neededOf used).map Provider.credentialClass ↔
      ∃ node ∈ nodes, IsAgent node ∧ NeedsClass node className := by
  have readable := exists_providersOf_iff.mp ⟨used, areUsed⟩
  simp only [List.mem_map, mem_neededOf, mem_providersOf areUsed]
  constructor
  · rintro ⟨provider, ⟨node, member, made⟩, classIs⟩
    exact ⟨node, member, (exists_providerOf_iff made).mp
      ⟨provider, rfl, classIs⟩⟩
  · rintro ⟨node, member, needs⟩
    obtain ⟨found, made⟩ := readable node member
    obtain ⟨provider, rfl, classIs⟩ := (exists_providerOf_iff made).mpr needs
    exact ⟨provider, ⟨node, member, made⟩, classIs⟩

theorem pairwise_classes
    (used : List Provider) :
    ((neededOf used).map Provider.credentialClass).Pairwise (· < ·) :=
  Provider.pairwise_credentialClass.sublist
    (List.filter_sublist.map Provider.credentialClass)

theorem imports_eq_of_mem_iff
    {language text : String}
    {workflow value other otherValue : Value}
    (isValue : workflow.get "nodes" (.list []) = .ok value)
    (areNodes : value.elements = .ok nodes)
    (isOther : other.get "nodes" (.list []) = .ok otherValue)
    (areOthers : otherValue.elements = .ok others)
    (same : ∀ node, node ∈ others ↔ node ∈ nodes)
    (areUsed : providersOf nodes = .ok used)
    (made : imports language workflow = .ok text) :
    imports language other = .ok text := by
  have readable := exists_providersOf_iff.mp ⟨used, areUsed⟩
  obtain ⟨otherUsed, areOtherUsed⟩ := exists_providersOf_iff.mpr
    fun node member => readable node ((same node).mp member)
  have sameUsed : ∀ provider, provider ∈ otherUsed ↔ provider ∈ used := by
    intro provider
    simp only [mem_providersOf areOtherUsed, mem_providersOf areUsed, same]
  rw [imports_eq isOther areOthers areOtherUsed,
    neededOf_eq_of_mem_iff sameUsed,
    ← imports_eq isValue areNodes areUsed, made]

/--
The method of a node looks up the key of the provider that the node names.
-/
theorem fillCommon_key
    {fields : Fields}
    {name filled : String}
    {code : Value}
    (has : HasParameters node fields)
    (names : NamesProvider fields name)
    (made : Method.fillCommon code node = .ok filled) :
    Method.fillCommon (.text (placeholder "api_key")) node =
      .ok (Method.keyCode (.ofName name)) := by
  obtain ⟨slots, slotsMade, _⟩ := bind_eq_ok.mp made
  obtain ⟨_, _, _, _, _, other, isOther, member⟩ :=
    Method.mem_commonSlots slotsMade has
  obtain rfl : other = name := by
    cases names with
    | missing noProvider =>
        simpa [Method.given, Value.field?, noProvider, Value.unwrapped]
          using isOther.symm
    | plain isText =>
        simpa [Method.given, Value.field?, isText, Value.unwrapped]
          using isOther.symm
    | wrapped isObject isText =>
        simpa [Method.given, Value.field?, isObject, Value.unwrapped, isText]
          using isOther.symm
    | unnamed isObject noValue =>
        simp [Method.given, Value.field?, isObject, Value.unwrapped, noValue]
          at isOther
  have free : TagFree (Method.keyCode (.ofName other)).toList := by
    cases Provider.ofName other <;> exact .of_not_mem (by decide)
  have filledAlone := Method.fillCommon_apart slotsMade member free
    (show StandsApart "".toList "".toList by decide)
  rw [Method.fill_commonSlots_eq_self slotsMade (by decide)] at filledAlone
  simpa using filledAlone

/--
The lines for credentials name the classes that the agents of a workflow need,
in order and each once, whatever the order and number of its nodes.  An agent
needs one class, and if its method can be filled, the variable that is looked
up there belongs to this class.
-/
theorem imports_name_needed_classes
    {language text : String}
    {workflow : Value}
    (made : imports language workflow = .ok text) :
    ∃ (value : Value) (nodes : List Value) (classes : List String),
      workflow.get "nodes" (.list []) = .ok value ∧ value.elements = .ok nodes ∧
      text = Text.ofLines (classes.map (importLine language)) ∧
      classes.Pairwise (· < ·) ∧
      (∀ className, className ∈ classes ↔
        ∃ node ∈ nodes, IsAgent node ∧ NeedsClass node className) ∧
      (∀ other otherValue others,
        other.get "nodes" (.list []) = .ok otherValue →
        otherValue.elements = .ok others →
        (∀ node, node ∈ others ↔ node ∈ nodes) →
        imports language other = .ok text) ∧
      ∀ node ∈ nodes, IsAgent node → ∃ className,
        (∀ other, NeedsClass node other ↔ other = className) ∧
        ∀ code filled, Method.fillCommon code node = .ok filled → ∃ key,
          Method.fillCommon (.text (placeholder "api_key")) node =
            .ok ("getenv('" ++ key ++ "') ?: ''") ∧
          ∀ classKey ∈ Provider.classKeys, className = classKey.1 ↔
          key = classKey.2 := by
  obtain ⟨value, isValue, rest⟩ := bind_eq_ok.mp made
  obtain ⟨nodes, areNodes, rest⟩ := bind_eq_ok.mp rest
  obtain ⟨used, areUsed, _⟩ := bind_eq_ok.mp rest
  have textIs :=
    Except.ok.inj (made.symm.trans (imports_eq isValue areNodes areUsed))
  refine ⟨value, nodes, _, isValue, areNodes, textIs, pairwise_classes used,
    fun className => mem_classes_iff areUsed, ?_, fun node member isAgent => ?_⟩
  · intro other otherValue others isOther areOthers same
    exact imports_eq_of_mem_iff isValue areNodes isOther areOthers same areUsed
      made
  · obtain ⟨found, isFound⟩ :=
      exists_providersOf_iff.mp ⟨used, areUsed⟩ node member
    obtain ⟨_, isNoAgent⟩ | ⟨fields, name, _, _, has, names⟩ :=
      providerOf_eq_ok isFound
    · exact absurd isAgent isNoAgent
    · refine ⟨(Provider.ofName name).credentialClass, fun other => ?_,
        fun code filled wasFilled => ?_⟩
      · rw [needsClass_iff has names, eq_comm]
      · exact ⟨(Provider.ofName name).keyVariable,
          fillCommon_key has names wasFilled,
          (Provider.ofName name).class_eq_iff_key_eq⟩

/-- An agent whose provider is named in a way that fits two providers. -/
def mixedAgent : Value :=
  .object [("name", .text "Ask"),
    ("type", .text "@n8n/n8n-nodes-langchain.agent"),
    ("parameters", .object [("provider",
      .object [("value", .text "OpenRouter: Claude")])])]

/-- An agent that names no provider. -/
def plainAgent : Value :=
  .object [("name", .text "Answer"), ("type", .text "AIAgent")]

/-- A node that is no agent, and names a provider all the same. -/
def namingNode : Value :=
  .object [("name", .text "Set"), ("type", .text "set"),
    ("parameters", .object [("provider", .text "openrouter")])]

/--
The classes that agents need, also for the nodes in another order with one of
them twice.
-/
theorem imports_name_needed_classes_agents :
    imports "php" (.object [("nodes",
      .list [plainAgent, namingNode, mixedAgent])]) =
      .ok "use AnthropicCredentials;\nuse OpenAICredentials;" ∧
    imports "php" (.object [("nodes",
      .list [mixedAgent, plainAgent, mixedAgent, namingNode])]) =
      .ok "use AnthropicCredentials;\nuse OpenAICredentials;" ∧
    ∃ className, (∀ other, NeedsClass mixedAgent other ↔ other = className) ∧
      ∃ key, Method.fillCommon (.text (placeholder "api_key")) mixedAgent =
          .ok ("getenv('" ++ key ++ "') ?: ''") ∧
        ∀ classKey ∈ Provider.classKeys, className = classKey.1 ↔
        key = classKey.2 := by
  have made : imports "php" (.object
      [("nodes", .list [plainAgent, namingNode, mixedAgent])]) =
      .ok "use AnthropicCredentials;\nuse OpenAICredentials;" :=
    eq_ok_of_toOption (by decide +kernel)
  have isAgent : IsAgent mixedAgent :=
    .inr ⟨"@n8n/n8n-nodes-langchain.agent", by decide +kernel, by decide⟩
  obtain ⟨filled, wasFilled⟩ := exists_eq_ok_of_isOk
    (show (Method.fillCommon (.text "") mixedAgent).isOk = true by
      decide +kernel)
  obtain ⟨value, nodes, _, isValue, areNodes, _, _, _, reordered, agents⟩ :=
    imports_name_needed_classes made
  obtain rfl := Except.ok.inj isValue
  obtain rfl := Except.ok.inj areNodes
  obtain ⟨className, needs_iff, keys⟩ := agents mixedAgent (by simp) isAgent
  refine ⟨made,
    reordered _ _ [mixedAgent, plainAgent, mixedAgent, namingNode] rfl rfl
      fun node => ?_,
    className, needs_iff, keys _ _ wasFilled⟩
  simp only [List.mem_cons, List.not_mem_nil, or_false]
  tauto

end Class

end Flowgen
