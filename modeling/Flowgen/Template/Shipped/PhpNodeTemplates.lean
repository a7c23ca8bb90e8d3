import Flowgen.Template.Shipped.Layout

namespace Flowgen.Template.Shipped

/-!
# Node templates for PHP

The template of the method for each kind of node.  The `method` element of each
holds the code with its placeholders.
-/

/-- The code of the method template for function nodes. -/
def phpFunctionCode : List String :=
  ["private function \x7b\x7bmethod_name\x7d\x7d(): void",
   "\x7b",
   "    \x7b\x7bgenerated_code\x7d\x7d",
   "\x7d"]

/-- The method template for function nodes. -/
def phpFunction : String :=
  methodDocument "function" phpFunctionCode 2

/-- The code of the method template for request nodes. -/
def phpHttpRequestCode : List String :=
  ["private function \x7b\x7bmethod_name\x7d\x7d(): void",
   "\x7b",
   "    $url = \x7b\x7burl\x7d\x7d;",
   "    $method = \x7b\x7bmethod\x7d\x7d;",
   "    $headers = \x7b\x7bheaders\x7d\x7d;",
   "    $body = \x7b\x7bbody\x7d\x7d;",
   "    ",
   "    $ch = curl_init($url);",
   "    curl_setopt($ch, CURLOPT_RETURNTRANSFER, true);",
   "    curl_setopt($ch, CURLOPT_CUSTOMREQUEST, $method);",
   "    curl_setopt($ch, CURLOPT_HTTPHEADER, $headers);",
   "    if ($body) \x7b",
   "        curl_setopt($ch, CURLOPT_POSTFIELDS, json_encode($body));",
   "    \x7d",
   "    ",
   "    $response = curl_exec($ch);",
   "    $statusCode = curl_getinfo($ch, CURLINFO_HTTP_CODE);",
   "    curl_close($ch);",
   "    ",
   "    $this->context['\x7b\x7boutput_key\x7d\x7d'] = json_decode($response, true);",
   "\x7d"]

/-- The method template for request nodes. -/
def phpHttpRequest : String :=
  methodDocument "httpRequest" phpHttpRequestCode 2

/-- The code of the method template for condition nodes. -/
def phpIfCode : List String :=
  ["private function \x7b\x7bmethod_name\x7d\x7d(): void",
   "\x7b",
   "    // Nó IF - Condicional",
   "    \x7b\x7bgenerated_code\x7d\x7d",
   "    ",
   "    if (\x7b\x7bcondition\x7d\x7d) \x7b",
   "        // Caminho verdadeiro",
   "        \x7b\x7btrue_branch\x7d\x7d",
   "    \x7d else \x7b",
   "        // Caminho falso",
   "        \x7b\x7bfalse_branch\x7d\x7d",
   "    \x7d",
   "    ",
   "    $this->context['\x7b\x7boutput_key\x7d\x7d'] = $this->context;",
   "\x7d"]

/-- The method template for condition nodes. -/
def phpIf : String :=
  methodDocument "if" phpIfCode 2

/-- The code of the method template for assignment nodes. -/
def phpSetCode : List String :=
  ["private function \x7b\x7bmethod_name\x7d\x7d(): void",
   "\x7b",
   "    // Nó Set - Define valores no contexto",
   "    \x7b\x7bgenerated_code\x7d\x7d",
   "\x7d"]

/-- The method template for assignment nodes. -/
def phpSet : String :=
  methodDocument "set" phpSetCode 2

/-- The code of the method template for agent nodes. -/
def phpAgentCode : List String :=
  ["    /**",
   "     * Executa um agente de IA",
   "     * ",
   "     * Este método executa um agente de IA usando o prompt e modelo configurados.",
   "     * Suporta múltiplos provedores de IA (OpenAI, Anthropic, OpenRouter, etc.)",
   "     * ",
   "     * @return void",
   "     * @throws \\Exception Se houver erro na comunicação com a API de IA",
   "     */",
   "    private function \x7b\x7bmethod_name\x7d\x7d(): void",
   "    \x7b",
   "        try \x7b",
   "            // Parâmetros do agente",
   "            $prompt = \x7b\x7bprompt\x7d\x7d;",
   "            $model = \x7b\x7bmodel\x7d\x7d;",
   "            $temperature = \x7b\x7btemperature\x7d\x7d;",
   "            $maxTokens = \x7b\x7bmax_tokens\x7d\x7d;",
   "            $systemMessage = \x7b\x7bsystem_message\x7d\x7d;",
   "            ",
   "            // Obtém configurações da API (pode ser OpenAI, Anthropic, OpenRouter, etc.)",
   "            $apiProvider = \x7b\x7bapi_provider\x7d\x7d;",
   "            ",
   "            // Usa classe de credenciais apropriada",
   "            $credentials = null;",
   "            if (strpos($apiProvider, 'anthropic') !== false || strpos($apiProvider, 'claude') !== false) \x7b",
   "                $credentials = new AnthropicCredentials();",
   "                $apiUrl = 'https://api.anthropic.com/v1/messages';",
   "            \x7d elseif (strpos($apiProvider, 'openrouter') !== false) \x7b",
   "                $credentials = new OpenRouterCredentials();",
   "                $apiUrl = 'https://openrouter.ai/api/v1/chat/completions';",
   "            \x7d else \x7b",
   "                $credentials = new OpenAICredentials();",
   "                $apiUrl = 'https://api.openai.com/v1/chat/completions';",
   "            \x7d",
   "            ",
   "            $apiKey = $credentials->getApiKey();",
   "            ",
   "            // Prepara headers",
   "            $headers = [",
   "                'Content-Type: application/json',",
   "                'Authorization: Bearer ' . $apiKey",
   "            ];",
   "            ",
   "            // Headers específicos para Anthropic",
   "            if ($credentials instanceof AnthropicCredentials) \x7b",
   "                $headers[] = 'anthropic-version: 2023-06-01';",
   "            \x7d",
   "            ",
   "            // Prepara mensagens",
   "            $messages = [];",
   "            ",
   "            // Adiciona mensagem do sistema se fornecida",
   "            if (!empty($systemMessage)) \x7b",
   "                $messages[] = [",
   "                    'role' => 'system',",
   "                    'content' => $systemMessage",
   "                ];",
   "            \x7d",
   "            ",
   "            // Adiciona mensagem do usuário",
   "            $messages[] = [",
   "                'role' => 'user',",
   "                'content' => $prompt",
   "            ];",
   "            ",
   "            // Prepara body da requisição",
   "            $body = [",
   "                'model' => $model,",
   "                'messages' => $messages,",
   "                'temperature' => (float)$temperature,",
   "                'max_tokens' => (int)$maxTokens",
   "            ];",
   "            ",
   "            \x7b\x7btools_code\x7d\x7d",
   "            ",
   "            // Executa requisição para API de IA",
   "            $ch = curl_init($apiUrl);",
   "            curl_setopt($ch, CURLOPT_RETURNTRANSFER, true);",
   "            curl_setopt($ch, CURLOPT_POST, true);",
   "            curl_setopt($ch, CURLOPT_HTTPHEADER, $headers);",
   "            curl_setopt($ch, CURLOPT_POSTFIELDS, json_encode($body));",
   "            curl_setopt($ch, CURLOPT_TIMEOUT, 60); // Timeout de 60 segundos",
   "            curl_setopt($ch, CURLOPT_SSL_VERIFYPEER, true);",
   "            ",
   "            $response = curl_exec($ch);",
   "            $httpCode = curl_getinfo($ch, CURLINFO_HTTP_CODE);",
   "            $curlError = curl_error($ch);",
   "            curl_close($ch);",
   "            ",
   "            // Processa resposta",
   "            if ($httpCode === 200 && !empty($response)) \x7b",
   "                $responseData = json_decode($response, true);",
   "                ",
   "                if (json_last_error() !== JSON_ERROR_NONE) \x7b",
   "                    throw new \\Exception('Erro ao decodificar resposta JSON: ' . json_last_error_msg());",
   "                \x7d",
   "                ",
   "                // Extrai resposta baseado no formato da API",
   "                $aiResponse = '';",
   "                if (isset($responseData['choices'][0]['message']['content'])) \x7b",
   "                    // Formato OpenAI",
   "                    $aiResponse = $responseData['choices'][0]['message']['content'];",
   "                \x7d elseif (isset($responseData['content'][0]['text'])) \x7b",
   "                    // Formato Anthropic",
   "                    $aiResponse = $responseData['content'][0]['text'];",
   "                \x7d elseif (isset($responseData['message']['content'])) \x7b",
   "                    // Formato alternativo",
   "                    $aiResponse = $responseData['message']['content'];",
   "                \x7d else \x7b",
   "                    // Tenta encontrar conteúdo em qualquer lugar",
   "                    $aiResponse = $responseData['text'] ?? $responseData['response'] ?? '';",
   "                \x7d",
   "                ",
   "                // Armazena resultado no contexto",
   "                $this->context['\x7b\x7boutput_key\x7d\x7d'] = [",
   "                    'success' => true,",
   "                    'response' => $aiResponse,",
   "                    'model' => $model,",
   "                    'provider' => $apiProvider,",
   "                    'usage' => $responseData['usage'] ?? [],",
   "                    'finish_reason' => $responseData['choices'][0]['finish_reason'] ?? null,",
   "                    'raw_response' => $responseData",
   "                ];",
   "                ",
   "                // Log de sucesso (opcional)",
   "                if (isset($this->context['debug']) && $this->context['debug'] === true) \x7b",
   "                    error_log(sprintf(",
   "                        'AI Agent executado com sucesso: Modelo=%s, Tokens=%d',",
   "                        $model,",
   "                        $responseData['usage']['total_tokens'] ?? 0",
   "                    ));",
   "                \x7d",
   "            \x7d else \x7b",
   "                // Erro na requisição",
   "                $errorMessage = 'Erro na requisição à API de IA';",
   "                if (!empty($curlError)) \x7b",
   "                    $errorMessage .= ': ' . $curlError;",
   "                \x7d",
   "                ",
   "                $this->context['\x7b\x7boutput_key\x7d\x7d'] = [",
   "                    'success' => false,",
   "                    'error' => $errorMessage,",
   "                    'http_code' => $httpCode,",
   "                    'response' => $response,",
   "                    'model' => $model,",
   "                    'provider' => $apiProvider",
   "                ];",
   "                ",
   "                throw new \\Exception($errorMessage . ' (HTTP ' . $httpCode . ')');",
   "            \x7d",
   "        \x7d catch (\\Exception $e) \x7b",
   "            // Em caso de erro, armazena no contexto",
   "            $this->context['\x7b\x7boutput_key\x7d\x7d'] = [",
   "                'success' => false,",
   "                'error' => $e->getMessage(),",
   "                'exception' => get_class($e),",
   "                'trace' => $e->getTraceAsString()",
   "            ];",
   "            ",
   "            // Re-lança a exceção para permitir tratamento externo",
   "            throw $e;",
   "        \x7d",
   "        ",
   "        \x7b\x7badditional_code\x7d\x7d",
   "    \x7d"]

/-- The method template for agent nodes. -/
def phpAgent : String :=
  methodDocument "aiAgent" phpAgentCode 1

end Flowgen.Template.Shipped
