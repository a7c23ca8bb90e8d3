import Flowgen.Template.Shipped.Layout

namespace Flowgen.Template.Shipped

/-!
# Class templates

The template of the class for each language.  Each is a small document whose
`class` element holds the code with its placeholders.
-/

/-- The code of the class template for PHP. -/
def phpClassCode : List String :=
  ["<?php",
   "",
   "require_once __DIR__ . '/\x7b\x7bcredentials_path\x7d\x7d';",
   "",
   "\x7b\x7bcredentials_use\x7d\x7d",
   "",
   "/**",
   " * Classe gerada automaticamente pelo n8ncoding",
   " * ",
   " * Esta classe representa o workflow \"\x7b\x7bworkflow_name\x7d\x7d\" convertido do n8n.",
   " * ",
   " * @package Generated",
   " * @author n8ncoding",
   " * @version \x7b\x7bversion\x7d\x7d",
   " */",
   "class \x7b\x7bclass_name\x7d\x7d \x7b",
   "",
   "    /**",
   "     * Contexto interno para armazenar dados entre nós",
   "     * ",
   "     * @var array",
   "     */",
   "    private array $context = [];",
   "    ",
   "    /**",
   "     * Parâmetros do workflow (passados no construtor)",
   "     * ",
   "     * @var array",
   "     */",
   "    private array $params = [];",
   "",
   "    \x7b\x7bconstructor\x7d\x7d",
   "",
   "    /**",
   "     * Executa o workflow",
   "     * ",
   "     * Este método executa todos os nós do workflow na ordem correta,",
   "     * passando dados através do contexto interno.",
   "     * ",
   "     * @param array $additionalParams Parâmetros adicionais (opcional)",
   "     * @return mixed Resultado final do workflow (geralmente o contexto completo)",
   "     * @throws \\Exception Em caso de erro durante a execução",
   "     */",
   "    public function run(array $additionalParams = []): mixed",
   "    \x7b",
   "        try \x7b",
   "            // Inicializa o contexto com os parâmetros fornecidos",
   "            $this->context = array_merge([",
   "                'start_time' => microtime(true),",
   "                'workflow_name' => '\x7b\x7bworkflow_name\x7d\x7d',",
   "            ], $this->params, $additionalParams);",
   "",
   "            // Executa os nós na ordem definida",
   "            \x7b\x7bsteps_calls\x7d\x7d",
   "",
   "            // Adiciona informações de finalização ao contexto",
   "            $this->context['end_time'] = microtime(true);",
   "            $this->context['execution_time'] = ",
   "                $this->context['end_time'] - $this->context['start_time'];",
   "",
   "            return $this->context;",
   "        \x7d catch (\\Exception $e) \x7b",
   "            // Em caso de erro, adiciona informações ao contexto",
   "            $this->context['error'] = [",
   "                'message' => $e->getMessage(),",
   "                'code' => $e->getCode(),",
   "                'file' => $e->getFile(),",
   "                'line' => $e->getLine(),",
   "                'trace' => $e->getTraceAsString()",
   "            ];",
   "            ",
   "            throw $e;",
   "        \x7d",
   "    \x7d",
   "",
   "    /**",
   "     * Obtém o contexto atual do workflow",
   "     * ",
   "     * @return array Contexto atual",
   "     */",
   "    public function getContext(): array",
   "    \x7b",
   "        return $this->context;",
   "    \x7d",
   "",
   "    /**",
   "     * Define um valor no contexto",
   "     * ",
   "     * @param string $key Chave do contexto",
   "     * @param mixed $value Valor a ser armazenado",
   "     * @return void",
   "     */",
   "    public function setContext(string $key, mixed $value): void",
   "    \x7b",
   "        $this->context[$key] = $value;",
   "    \x7d",
   "",
   "    /**",
   "     * Obtém um valor do contexto",
   "     * ",
   "     * @param string $key Chave do contexto",
   "     * @param mixed $default Valor padrão se a chave não existir",
   "     * @return mixed Valor do contexto ou valor padrão",
   "     */",
   "    public function getContextValue(string $key, mixed $default = null): mixed",
   "    \x7b",
   "        return $this->context[$key] ?? $default;",
   "    \x7d",
   "",
   "    /**",
   "     * Limpa o contexto do workflow",
   "     * ",
   "     * @return void",
   "     */",
   "    public function clearContext(): void",
   "    \x7b",
   "        $this->context = [];",
   "    \x7d",
   "",
   "    \x7b\x7bsteps_methods\x7d\x7d",
   "\x7d"]

/-- The class template for PHP. -/
def phpClass : String :=
  classDocument phpClassCode

/-- The code of the class template for Python. -/
def pythonClassCode : List String :=
  ["\"\"\"",
   "Classe gerada automaticamente pelo n8ncoding",
   "",
   "Esta classe representa o workflow \"\x7b\x7bworkflow_name\x7d\x7d\" convertido do n8n.",
   "",
   "@author n8ncoding",
   "@version \x7b\x7bversion\x7d\x7d",
   "\"\"\"",
   "import os",
   "import sys",
   "from typing import Dict, Any, Optional",
   "from pathlib import Path",
   "",
   "# Adiciona o diretório de credenciais ao path",
   "import os",
   "credentials_path = Path(__file__).parent.parent / 'credentials'",
   "sys.path.insert(0, str(credentials_path))",
   "",
   "\x7b\x7bcredentials_import\x7d\x7d",
   "",
   "class \x7b\x7bclass_name\x7d\x7d:",
   "    \"\"\"",
   "    Classe gerada automaticamente pelo n8ncoding",
   "    ",
   "    Esta classe representa o workflow \"\x7b\x7bworkflow_name\x7d\x7d\" convertido do n8n.",
   "    \"\"\"",
   "    ",
   "    def __init__(self, **kwargs):",
   "        \x7b\x7bconstructor\x7d\x7d",
   "    ",
   "    def run(self, additional_params: Optional[Dict[str, Any]] = None) -> Dict[str, Any]:",
   "        \"\"\"",
   "        Executa o workflow.",
   "        ",
   "        Este método executa todos os nós do workflow na ordem correta,",
   "        passando dados através do contexto interno.",
   "        ",
   "        Args:",
   "            additional_params: Parâmetros adicionais (opcional)",
   "            ",
   "        Returns:",
   "            Resultado final do workflow (geralmente o contexto completo)",
   "            ",
   "        Raises:",
   "            Exception: Em caso de erro durante a execução",
   "        \"\"\"",
   "        try:",
   "            # Inicializa o contexto com os parâmetros fornecidos",
   "            import time",
   "            self.context = \x7b",
   "                'start_time': time.time(),",
   "                'workflow_name': '\x7b\x7bworkflow_name\x7d\x7d',",
   "                **self.params,",
   "                **(additional_params or \x7b\x7d)",
   "            \x7d",
   "            ",
   "            # Executa os nós na ordem definida",
   "            \x7b\x7bsteps_calls\x7d\x7d",
   "            ",
   "            # Adiciona informações de finalização ao contexto",
   "            self.context['end_time'] = time.time()",
   "            self.context['execution_time'] = (",
   "                self.context['end_time'] - self.context['start_time']",
   "            )",
   "            ",
   "            return self.context",
   "        except Exception as e:",
   "            # Em caso de erro, adiciona informações ao contexto",
   "            import traceback",
   "            self.context['error'] = \x7b",
   "                'message': str(e),",
   "                'type': type(e).__name__,",
   "                'traceback': traceback.format_exc()",
   "            \x7d",
   "            raise",
   "    ",
   "    def get_context(self) -> Dict[str, Any]:",
   "        \"\"\"",
   "        Obtém o contexto atual do workflow.",
   "        ",
   "        Returns:",
   "            Contexto atual",
   "        \"\"\"",
   "        return self.context",
   "    ",
   "    def set_context(self, key: str, value: Any) -> None:",
   "        \"\"\"",
   "        Define um valor no contexto.",
   "        ",
   "        Args:",
   "            key: Chave do contexto",
   "            value: Valor a ser armazenado",
   "        \"\"\"",
   "        self.context[key] = value",
   "    ",
   "    def get_context_value(self, key: str, default: Any = None) -> Any:",
   "        \"\"\"",
   "        Obtém um valor do contexto.",
   "        ",
   "        Args:",
   "            key: Chave do contexto",
   "            default: Valor padrão se a chave não existir",
   "            ",
   "        Returns:",
   "            Valor do contexto ou valor padrão",
   "        \"\"\"",
   "        return self.context.get(key, default)",
   "    ",
   "    def clear_context(self) -> None:",
   "        \"\"\"",
   "        Limpa o contexto do workflow.",
   "        \"\"\"",
   "        self.context = \x7b\x7d",
   "    ",
   "    \x7b\x7bsteps_methods\x7d\x7d"]

/-- The class template for Python. -/
def pythonClass : String :=
  classDocument pythonClassCode

/-- The code of the class template for JavaScript. -/
def javascriptClassCode : List String :=
  ["/**",
   " * Classe gerada automaticamente pelo n8ncoding",
   " * ",
   " * Esta classe representa o workflow \"\x7b\x7bworkflow_name\x7d\x7d\" convertido do n8n.",
   " * ",
   " * @author n8ncoding",
   " * @version \x7b\x7bversion\x7d\x7d",
   " */",
   "",
   "\x7b\x7bcredentials_require\x7d\x7d",
   "",
   "class \x7b\x7bclass_name\x7d\x7d \x7b",
   "    \x7b\x7bconstructor\x7d\x7d",
   "    ",
   "    /**",
   "     * Executa o workflow",
   "     * ",
   "     * Este método executa todos os nós do workflow na ordem correta,",
   "     * passando dados através do contexto interno.",
   "     * ",
   "     * @param \x7bObject\x7d additionalParams - Parâmetros adicionais (opcional)",
   "     * @returns \x7bPromise<Object>\x7d Resultado final do workflow (geralmente o contexto completo)",
   "     * @throws \x7bError\x7d Em caso de erro durante a execução",
   "     */",
   "    async run(additionalParams = \x7b\x7d) \x7b",
   "        try \x7b",
   "            // Inicializa o contexto com os parâmetros fornecidos",
   "            this.context = \x7b",
   "                startTime: Date.now(),",
   "                workflowName: '\x7b\x7bworkflow_name\x7d\x7d',",
   "                ...this.params,",
   "                ...additionalParams",
   "            \x7d;",
   "            ",
   "            // Executa os nós na ordem definida",
   "            \x7b\x7bsteps_calls\x7d\x7d",
   "            ",
   "            // Adiciona informações de finalização ao contexto",
   "            this.context.endTime = Date.now();",
   "            this.context.executionTime = ",
   "                this.context.endTime - this.context.startTime;",
   "            ",
   "            return this.context;",
   "        \x7d catch (error) \x7b",
   "            // Em caso de erro, adiciona informações ao contexto",
   "            this.context.error = \x7b",
   "                message: error.message,",
   "                name: error.name,",
   "                stack: error.stack",
   "            \x7d;",
   "            throw error;",
   "        \x7d",
   "    \x7d",
   "    ",
   "    /**",
   "     * Obtém o contexto atual do workflow",
   "     * ",
   "     * @returns \x7bObject\x7d Contexto atual",
   "     */",
   "    getContext() \x7b",
   "        return this.context;",
   "    \x7d",
   "    ",
   "    /**",
   "     * Define um valor no contexto",
   "     * ",
   "     * @param \x7bstring\x7d key - Chave do contexto",
   "     * @param \x7b*\x7d value - Valor a ser armazenado",
   "     */",
   "    setContext(key, value) \x7b",
   "        this.context[key] = value;",
   "    \x7d",
   "    ",
   "    /**",
   "     * Obtém um valor do contexto",
   "     * ",
   "     * @param \x7bstring\x7d key - Chave do contexto",
   "     * @param \x7b*\x7d defaultValue - Valor padrão se a chave não existir",
   "     * @returns \x7b*\x7d Valor do contexto ou valor padrão",
   "     */",
   "    getContextValue(key, defaultValue = null) \x7b",
   "        return this.context[key] ?? defaultValue;",
   "    \x7d",
   "    ",
   "    /**",
   "     * Limpa o contexto do workflow",
   "     */",
   "    clearContext() \x7b",
   "        this.context = \x7b\x7d;",
   "    \x7d",
   "    ",
   "    \x7b\x7bsteps_methods\x7d\x7d",
   "\x7d",
   "",
   "\x7b\x7bmodule_export\x7d\x7d"]

/-- The class template for JavaScript. -/
def javascriptClass : String :=
  classDocument javascriptClassCode

end Flowgen.Template.Shipped
