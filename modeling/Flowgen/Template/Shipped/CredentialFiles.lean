import Flowgen.Text.Lines

namespace Flowgen.Template.Shipped

/-!
# Credential files

The files that generated classes share to get at the keys of providers.
-/

/-- A provider in the credential files. -/
structure Provider where
  /-- Its name in names of classes. -/
  name : String
  /-- Its name for readers. -/
  title : String
  /-- The environment variable with its key. -/
  key : String

/-- The providers with a class of their own. -/
def providers : List Provider :=
  [⟨"OpenAI", "OpenAI", "OPENAI_API_KEY"⟩,
   ⟨"Anthropic", "Anthropic (Claude)", "ANTHROPIC_API_KEY"⟩,
   ⟨"OpenRouter", "OpenRouter", "OPENROUTER_API_KEY"⟩]

/-- The class of a provider in PHP. -/
def phpProvider (provider : Provider) : List String :=
  ["/**",
   " * Credenciais para " ++ provider.title,
   " * ",
   " * @package Generated\\Credentials",
   " */",
   "class " ++ provider.name ++ "Credentials extends Credentials \x7b",
   "    ",
   "    private string $apiKey;",
   "    ",
   "    /**",
   "     * @param string|null $apiKey Chave da API (opcional, usa "
     ++ provider.key ++ " se não fornecido)",
   "     */",
   "    public function __construct(?string $apiKey = null)",
   "    \x7b",
   "        $this->apiKey = $apiKey ?? self::getEnv('"
     ++ provider.key ++ "', '');",
   "        self::validate($this->apiKey, '" ++ provider.key ++ "');",
   "    \x7d",
   "    ",
   "    public function getApiKey(): string",
   "    \x7b",
   "        return $this->apiKey;",
   "    \x7d",
   "\x7d",
   ""]

/-- The credentials in PHP. -/
def phpCredentials : String :=
  Text.ofLines
    (["<?php",
      "",
      "/**",
      " * Classe base para credenciais de APIs",
      " * ",
      " * Esta classe fornece acesso centralizado às credenciais de APIs,",
      " * carregando-as de variáveis de ambiente ou permitindo injeção direta.",
      " * ",
      " * @package Generated\\Credentials",
      " */",
      "abstract class Credentials \x7b",
      "    ",
      "    /**",
      "     * Obtém uma credencial de variável de ambiente",
      "     * ",
      "     * @param string $key Nome da variável de ambiente",
      "     * @param string $default Valor padrão se não encontrado",
      "     * @return string Valor da credencial",
      "     */",
      "    protected static function getEnv(string $key, string $default = ''): string",
      "    \x7b",
      "        $value = getenv($key);",
      "        return $value !== false ? $value : $default;",
      "    \x7d",
      "    ",
      "    /**",
      "     * Valida se uma credencial está configurada",
      "     * ",
      "     * @param string $value Valor da credencial",
      "     * @param string $name Nome da credencial (para mensagem de erro)",
      "     * @throws \\RuntimeException Se a credencial não estiver configurada",
      "     */",
      "    protected static function validate(string $value, string $name): void",
      "    \x7b",
      "        if (empty($value)) \x7b",
      "            throw new \\RuntimeException(",
      "                \"Credencial '\x7b$name\x7d' não configurada. \" .",
      "                \"Configure a variável de ambiente ou passe via construtor.\"",
      "            );",
      "        \x7d",
      "    \x7d",
      "\x7d",
      ""]
      ++ providers.flatMap phpProvider ++ [""])

/-- The class of a provider in Python. -/
def pythonProvider (provider : Provider) : List String :=
  ["class " ++ provider.name ++ "Credentials(Credentials):",
   "    \"\"\"Credenciais para " ++ provider.title ++ "\"\"\"",
   "    ",
   "    def __init__(self, api_key: Optional[str] = None):",
   "        \"\"\"",
   "        Inicializa credenciais " ++ provider.name,
   "        ",
   "        Args:",
   "            api_key: Chave da API (opcional, usa variável de ambiente se não fornecida)",
   "        \"\"\"",
   "        self._api_key = api_key",
   "    ",
   "    def get_api_key(self) -> str:",
   "        \"\"\"",
   "        Obtém a chave da API " ++ provider.name,
   "        ",
   "        Returns:",
   "            Chave da API ou string vazia se não configurada",
   "        \"\"\"",
   "        if self._api_key:",
   "            return self._api_key",
   "        return os.getenv('" ++ provider.key ++ "', '')",
   "",
   ""]

/-- The credentials in Python. -/
def pythonCredentials : String :=
  Text.ofLines
    (["\"\"\"",
      "Classes de credenciais para APIs de IA",
      "",
      "Este módulo fornece classes para gerenciar credenciais de diferentes",
      "provedores de IA (OpenAI, Anthropic, OpenRouter, etc.)",
      "\"\"\"",
      "import os",
      "from abc import ABC, abstractmethod",
      "from typing import Optional",
      "",
      "",
      "class Credentials(ABC):",
      "    \"\"\"Classe base abstrata para credenciais de API\"\"\"",
      "    ",
      "    @abstractmethod",
      "    def get_api_key(self) -> str:",
      "        \"\"\"",
      "        Obtém a chave da API",
      "        ",
      "        Returns:",
      "            Chave da API ou string vazia se não configurada",
      "        \"\"\"",
      "        pass",
      "",
      ""]
      ++ providers.flatMap pythonProvider)

/-- The class of a provider in JavaScript. -/
def javascriptProvider (provider : Provider) : List String :=
  ["/**",
   " * Credenciais para " ++ provider.title,
   " */",
   "class " ++ provider.name ++ "Credentials extends Credentials \x7b",
   "    /**",
   "     * Construtor",
   "     * ",
   "     * @param \x7bstring|null\x7d apiKey - Chave da API (opcional, usa variável de ambiente se não fornecida)",
   "     */",
   "    constructor(apiKey = null) \x7b",
   "        super();",
   "        this._apiKey = apiKey;",
   "    \x7d",
   "    ",
   "    /**",
   "     * Obtém a chave da API " ++ provider.name,
   "     * ",
   "     * @returns \x7bstring\x7d Chave da API ou string vazia se não configurada",
   "     */",
   "    getApiKey() \x7b",
   "        if (this._apiKey) \x7b",
   "            return this._apiKey;",
   "        \x7d",
   "        return process.env." ++ provider.key ++ " || '';",
   "    \x7d",
   "\x7d",
   ""]

/-- The credentials in JavaScript. -/
def javascriptCredentials : String :=
  Text.ofLines
    (["/**",
      " * Classes de credenciais para APIs de IA",
      " * ",
      " * Este módulo fornece classes para gerenciar credenciais de diferentes",
      " * provedores de IA (OpenAI, Anthropic, OpenRouter, etc.)",
      " */",
      "",
      "/**",
      " * Classe base abstrata para credenciais de API",
      " */",
      "class Credentials \x7b",
      "    /**",
      "     * Obtém a chave da API",
      "     * ",
      "     * @returns \x7bstring\x7d Chave da API ou string vazia se não configurada",
      "     */",
      "    getApiKey() \x7b",
      "        throw new Error('Método getApiKey() deve ser implementado');",
      "    \x7d",
      "\x7d",
      ""]
      ++ providers.flatMap javascriptProvider
      ++ ["module.exports = \x7b",
          "    Credentials,",
          "    OpenAICredentials,",
          "    AnthropicCredentials,",
          "    OpenRouterCredentials",
          "\x7d;",
          "",
          ""])

end Flowgen.Template.Shipped
