import Flowgen.Text.Lines
import Flowgen.Value.Access
import Flowgen.Value.Display

namespace Flowgen.Class

/-!
# Constructors

The constructor of a generated class takes the parameters of its workflow.
-/

/-- The constructor in PHP. -/
def phpConstructor (parameters : Value) : Except Fault String := do
  if parameters.isTruthy then
    let fields ← parameters.fieldsFor .items
    let remarks := fields.map fun field =>
      "     * @param " ++ field.2.display ++ " $" ++ field.1
        ++ " Parâmetro " ++ field.1
    let formals :=
      fields.map fun field => field.2.display ++ " $" ++ field.1 ++ " = null"
    let assignments := fields.map fun field =>
      "        $this->params['" ++ field.1 ++ "'] = $" ++ field.1 ++ ";\n"
    return "    /**\n     * Construtor da classe\n     *\n"
      ++ Text.ofLines remarks
      ++ "\n     * @param array $params Parâmetros adicionais (opcional)\n     */\n"
      ++ "    public function __construct(" ++ Text.join ", " formals
      ++ ", array $params = [])\n"
      ++ "    \x7b\n        // Parâmetros nomeados\n        $this->params = [];\n"
      ++ String.join assignments
      ++ "        \n        // Parâmetros adicionais\n"
      ++ "        $this->params = array_merge($this->params, $params);\n    \x7d"
  else
    return "    /**\n     * Construtor da classe\n     * \n"
      ++ "     * @param array $params Parâmetros do workflow\n     */\n"
      ++ "    public function __construct(array $params = [])\n    \x7b\n"
      ++ "        $this->params = $params;\n    \x7d"

/-- The body of the constructor in Python. -/
def pythonConstructor (parameters : Value) : Except Fault String := do
  let fields ← if parameters.isTruthy then parameters.fieldsFor .items
    else .ok []
  let remarks := fields.map fun field =>
    "        " ++ field.1 ++ ": " ++ field.2.display
      ++ " - Parâmetro " ++ field.1
  let assignments := fields.map fun field =>
    "        self.params['" ++ field.1 ++ "'] = kwargs.get('" ++ field.1 ++ "')"
  let opened := ["        \"\"\"", "        Inicializa a classe do workflow."]
  let closed :=
    ["        \"\"\"",
     "        self.context: Dict[str, Any] = \x7b\x7d",
     "        self.params: Dict[str, Any] = \x7b\x7d"]
  if fields.isEmpty then
    return Text.ofLines (opened ++ closed)
  else
    return Text.ofLines (opened ++ "" :: remarks ++ closed ++ "" :: assignments)

/-- The constructor in JavaScript. -/
def javascriptConstructor (parameters : Value) : Except Fault String := do
  if parameters.isTruthy then
    let fields ← parameters.fieldsFor .items
    let formals := fields.map fun field => field.1 ++ " = null"
    let remarks := fields.map fun field =>
      "      * @param \x7b" ++ field.2.display ++ "\x7d " ++ field.1
        ++ " - Parâmetro " ++ field.1
    let assignments := fields.map fun field =>
      "         this.params['" ++ field.1 ++ "'] = " ++ field.1 ++ ";"
    return "     /**\n      * Construtor da classe\n      *\n"
      ++ Text.ofLines remarks
      ++ "\n      */\n     constructor(" ++ Text.join ", " formals ++ ") \x7b\n"
      ++ "         this.context = \x7b\x7d;\n         this.params = \x7b\x7d;\n         \n"
      ++ Text.ofLines assignments ++ "\n     \x7d"
  else
    return "     /**\n      * Construtor da classe\n      */\n     constructor() \x7b\n"
      ++ "         this.context = \x7b\x7d;\n         this.params = \x7b\x7d;\n     \x7d"

/-- The constructor for parameters in a language. -/
def constructor
    (language : String)
    (parameters : Value) :
    Except Fault String :=
  if language = "python" then
    pythonConstructor parameters
  else if language = "javascript" then
    javascriptConstructor parameters
  else
    phpConstructor parameters

end Flowgen.Class
