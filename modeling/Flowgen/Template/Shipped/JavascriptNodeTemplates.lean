import Flowgen.Template.Shipped.Layout

namespace Flowgen.Template.Shipped

/-!
# Node templates for JavaScript

The template of the method for each kind of node.  The `method` element of each
holds the code with its placeholders.
-/

/-- The code of the method template for function nodes. -/
def javascriptFunctionCode : List String :=
  ["    /**",
   "     * Nó Function - Executa código customizado",
   "     */",
   "    \x7b\x7bmethod_name\x7d\x7d() \x7b",
   "        \x7b\x7bgenerated_code\x7d\x7d",
   "    \x7d"]

/-- The method template for function nodes. -/
def javascriptFunction : String :=
  methodDocument "function" javascriptFunctionCode 2

/-- The code of the method template for request nodes. -/
def javascriptHttpRequestCode : List String :=
  ["    /**",
   "     * Executa uma requisição HTTP",
   "     */",
   "    async \x7b\x7bmethod_name\x7d\x7d() \x7b",
   "        const fetch = require('node-fetch');",
   "        ",
   "        const url = \x7b\x7burl\x7d\x7d;",
   "        const method = \x7b\x7bmethod\x7d\x7d;",
   "        const headers = \x7b\x7bheaders\x7d\x7d || \x7b\x7d;",
   "        const body = \x7b\x7bbody\x7d\x7d;",
   "        ",
   "        // Executa requisição",
   "        const response = await fetch(url, \x7b",
   "            method: method,",
   "            headers: headers,",
   "            body: body ? JSON.stringify(body) : undefined,",
   "            timeout: 30000",
   "        \x7d);",
   "        ",
   "        // Armazena resposta no contexto",
   "        try \x7b",
   "            this.context['\x7b\x7boutput_key\x7d\x7d'] = await response.json();",
   "        \x7d catch (e) \x7b",
   "            this.context['\x7b\x7boutput_key\x7d\x7d'] = \x7b",
   "                status_code: response.status,",
   "                text: await response.text(),",
   "                headers: Object.fromEntries(response.headers.entries())",
   "            \x7d;",
   "        \x7d",
   "    \x7d"]

/-- The method template for request nodes. -/
def javascriptHttpRequest : String :=
  methodDocument "httpRequest" javascriptHttpRequestCode 2

/-- The code of the method template for condition nodes. -/
def javascriptIfCode : List String :=
  ["    /**",
   "     * Nó IF - Condicional",
   "     */",
   "    \x7b\x7bmethod_name\x7d\x7d() \x7b",
   "        \x7b\x7bgenerated_code\x7d\x7d",
   "        ",
   "        if (\x7b\x7bcondition\x7d\x7d) \x7b",
   "            // Caminho verdadeiro",
   "            \x7b\x7btrue_branch\x7d\x7d",
   "        \x7d else \x7b",
   "            // Caminho falso",
   "            \x7b\x7bfalse_branch\x7d\x7d",
   "        \x7d",
   "        ",
   "        this.context['\x7b\x7boutput_key\x7d\x7d'] = this.context;",
   "    \x7d"]

/-- The method template for condition nodes. -/
def javascriptIf : String :=
  methodDocument "if" javascriptIfCode 2

/-- The code of the method template for assignment nodes. -/
def javascriptSetCode : List String :=
  ["    /**",
   "     * Nó Set - Define valores no contexto",
   "     */",
   "    \x7b\x7bmethod_name\x7d\x7d() \x7b",
   "        \x7b\x7bgenerated_code\x7d\x7d",
   "    \x7d"]

/-- The method template for assignment nodes. -/
def javascriptSet : String :=
  methodDocument "set" javascriptSetCode 2

/-- The code of the method template for agent nodes. -/
def javascriptAgentCode : List String :=
  ["    /**",
   "     * Executa um agente de IA",
   "     * ",
   "     * Este método executa um agente de IA usando o prompt e modelo configurados.",
   "     * Suporta múltiplos provedores de IA (OpenAI, Anthropic, OpenRouter, etc.)",
   "     * ",
   "     * @throws \x7bError\x7d Se houver erro na comunicação com a API de IA",
   "     */",
   "    async \x7b\x7bmethod_name\x7d\x7d() \x7b",
   "        try \x7b",
   "            const fetch = require('node-fetch');",
   "            ",
   "            // Parâmetros do agente",
   "            const prompt = \x7b\x7bprompt\x7d\x7d;",
   "            const model = \x7b\x7bmodel\x7d\x7d;",
   "            const temperature = parseFloat(\x7b\x7btemperature\x7d\x7d);",
   "            const maxTokens = parseInt(\x7b\x7bmax_tokens\x7d\x7d);",
   "            const systemMessage = \x7b\x7bsystem_message\x7d\x7d;",
   "            ",
   "            // Obtém configurações da API (pode ser OpenAI, Anthropic, OpenRouter, etc.)",
   "            const apiProvider = \x7b\x7bapi_provider\x7d\x7d;",
   "            ",
   "            // Usa classe de credenciais apropriada",
   "            let apiKey = null;",
   "            let apiUrl = null;",
   "            let credentials = null;",
   "            ",
   "            if (apiProvider.toLowerCase().includes('anthropic') || ",
   "                apiProvider.toLowerCase().includes('claude')) \x7b",
   "                const \x7b AnthropicCredentials \x7d = require('\x7b\x7bcredentials_path_base\x7d\x7d/AnthropicCredentials.js');",
   "                credentials = new AnthropicCredentials();",
   "                apiKey = credentials.getApiKey();",
   "                apiUrl = 'https://api.anthropic.com/v1/messages';",
   "            \x7d else if (apiProvider.toLowerCase().includes('openrouter')) \x7b",
   "                const \x7b OpenRouterCredentials \x7d = require('\x7b\x7bcredentials_path_base\x7d\x7d/OpenRouterCredentials.js');",
   "                credentials = new OpenRouterCredentials();",
   "                apiKey = credentials.getApiKey();",
   "                apiUrl = 'https://openrouter.ai/api/v1/chat/completions';",
   "            \x7d else \x7b",
   "                const \x7b OpenAICredentials \x7d = require('\x7b\x7bcredentials_path_base\x7d\x7d/OpenAICredentials.js');",
   "                credentials = new OpenAICredentials();",
   "                apiKey = credentials.getApiKey();",
   "                apiUrl = 'https://api.openai.com/v1/chat/completions';",
   "            \x7d",
   "            ",
   "            if (!apiKey) \x7b",
   "                throw new Error(`API Key para $\x7bapiProvider\x7d não configurada.`);",
   "            \x7d",
   "            ",
   "            // Prepara headers",
   "            const headers = \x7b",
   "                'Content-Type': 'application/json',",
   "                'Authorization': `Bearer $\x7bapiKey\x7d`",
   "            \x7d;",
   "            ",
   "            // Headers específicos para Anthropic",
   "            if (apiProvider.toLowerCase().includes('anthropic')) \x7b",
   "                headers['anthropic-version'] = '2023-06-01';",
   "            \x7d else if (apiProvider.toLowerCase().includes('openrouter')) \x7b",
   "                headers['HTTP-Referer'] = process.env.APP_URL || 'http://localhost';",
   "                headers['X-Title'] = 'n8ncoding';",
   "            \x7d",
   "            ",
   "            // Prepara mensagens",
   "            const messages = [];",
   "            ",
   "            // Adiciona mensagem do sistema se fornecida",
   "            if (systemMessage) \x7b",
   "                messages.push(\x7b",
   "                    role: 'system',",
   "                    content: systemMessage",
   "                \x7d);",
   "            \x7d",
   "            ",
   "            // Adiciona mensagem do usuário",
   "            messages.push(\x7b",
   "                role: 'user',",
   "                content: prompt",
   "            \x7d);",
   "            ",
   "            // Prepara body da requisição",
   "            const body = \x7b",
   "                model: model,",
   "                messages: messages,",
   "                temperature: temperature,",
   "                max_tokens: maxTokens",
   "            \x7d;",
   "            ",
   "            \x7b\x7btools_code\x7d\x7d",
   "            ",
   "            // Executa requisição para API de IA",
   "            const response = await fetch(apiUrl, \x7b",
   "                method: 'POST',",
   "                headers: headers,",
   "                body: JSON.stringify(body),",
   "                timeout: 60000",
   "            \x7d);",
   "            ",
   "            // Processa resposta",
   "            if (response.ok) \x7b",
   "                const responseData = await response.json();",
   "                ",
   "                // Extrai resposta baseado no formato da API",
   "                let aiResponse = '';",
   "                if (responseData.choices && responseData.choices.length > 0) \x7b",
   "                    // Formato OpenAI",
   "                    aiResponse = responseData.choices[0].message.content;",
   "                \x7d else if (responseData.content && responseData.content.length > 0) \x7b",
   "                    // Formato Anthropic",
   "                    aiResponse = responseData.content[0].text;",
   "                \x7d else if (responseData.message && responseData.message.content) \x7b",
   "                    // Formato alternativo",
   "                    aiResponse = responseData.message.content;",
   "                \x7d else \x7b",
   "                    // Tenta encontrar conteúdo em qualquer lugar",
   "                    aiResponse = responseData.text || responseData.response || '';",
   "                \x7d",
   "                ",
   "                // Armazena resultado no contexto",
   "                this.context['\x7b\x7boutput_key\x7d\x7d'] = \x7b",
   "                    success: true,",
   "                    response: aiResponse,",
   "                    model: model,",
   "                    provider: apiProvider,",
   "                    usage: responseData.usage || \x7b\x7d,",
   "                    finish_reason: responseData.choices?.[0]?.finish_reason || null,",
   "                    raw_response: responseData",
   "                \x7d;",
   "                ",
   "                // Log de sucesso (opcional)",
   "                if (this.context.debug) \x7b",
   "                    console.log(",
   "                        `AI Agent executado com sucesso: Modelo=$\x7bmodel\x7d, ` +",
   "                        `Tokens=$\x7bresponseData.usage?.total_tokens || 0\x7d`",
   "                    );",
   "                \x7d",
   "            \x7d else \x7b",
   "                // Erro na requisição",
   "                let errorMessage = `Erro na requisição à API de IA (HTTP $\x7bresponse.status\x7d)`;",
   "                try \x7b",
   "                    const errorData = await response.json();",
   "                    if (errorData.error && errorData.error.message) \x7b",
   "                        errorMessage += `: $\x7berrorData.error.message\x7d`;",
   "                    \x7d",
   "                \x7d catch (e) \x7b",
   "                    errorMessage += `: $\x7bawait response.text()\x7d`;",
   "                \x7d",
   "                ",
   "                this.context['\x7b\x7boutput_key\x7d\x7d'] = \x7b",
   "                    success: false,",
   "                    error: errorMessage,",
   "                    http_code: response.status,",
   "                    response: await response.text(),",
   "                    model: model,",
   "                    provider: apiProvider",
   "                \x7d;",
   "                ",
   "                throw new Error(errorMessage);",
   "            \x7d",
   "        \x7d catch (error) \x7b",
   "            // Em caso de erro, armazena no contexto",
   "            this.context['\x7b\x7boutput_key\x7d\x7d'] = \x7b",
   "                success: false,",
   "                error: error.message,",
   "                exception: error.constructor.name,",
   "                stack: error.stack",
   "            \x7d;",
   "            ",
   "            // Re-lança a exceção para permitir tratamento externo",
   "            throw error;",
   "        \x7d",
   "        ",
   "        \x7b\x7badditional_code\x7d\x7d",
   "    \x7d"]

/-- The method template for agent nodes. -/
def javascriptAgent : String :=
  methodDocument "aiAgent" javascriptAgentCode 2

end Flowgen.Template.Shipped
