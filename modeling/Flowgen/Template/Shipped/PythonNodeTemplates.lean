import Flowgen.Template.Shipped.Layout

namespace Flowgen.Template.Shipped

/-!
# Node templates for Python

The template of the method for each kind of node.  The `method` element of each
holds the code with its placeholders.
-/

/-- The code of the method template for function nodes. -/
def pythonFunctionCode : List String :=
  ["    def \x7b\x7bmethod_name\x7d\x7d(self) -> None:",
   "        \"\"\"",
   "        Nó Function - Executa código customizado",
   "        \"\"\"",
   "        \x7b\x7bgenerated_code\x7d\x7d"]

/-- The method template for function nodes. -/
def pythonFunction : String :=
  methodDocument "function" pythonFunctionCode 2

/-- The code of the method template for request nodes. -/
def pythonHttpRequestCode : List String :=
  ["    def \x7b\x7bmethod_name\x7d\x7d(self) -> None:",
   "        \"\"\"",
   "        Executa uma requisição HTTP",
   "        ",
   "        Args:",
   "            url: URL da requisição",
   "            method: Método HTTP (GET, POST, PUT, DELETE, etc.)",
   "            headers: Headers HTTP (opcional)",
   "            body: Corpo da requisição (opcional)",
   "        \"\"\"",
   "        import requests",
   "        import json",
   "        ",
   "        url = \x7b\x7burl\x7d\x7d",
   "        method = \x7b\x7bmethod\x7d\x7d",
   "        headers = \x7b\x7bheaders\x7d\x7d or \x7b\x7d",
   "        body = \x7b\x7bbody\x7d\x7d",
   "        ",
   "        # Executa requisição",
   "        response = requests.request(",
   "            method=method,",
   "            url=url,",
   "            headers=headers,",
   "            json=body if body else None,",
   "            timeout=30",
   "        )",
   "        ",
   "        # Armazena resposta no contexto",
   "        try:",
   "            self.context['\x7b\x7boutput_key\x7d\x7d'] = response.json()",
   "        except json.JSONDecodeError:",
   "            self.context['\x7b\x7boutput_key\x7d\x7d'] = \x7b",
   "                'status_code': response.status_code,",
   "                'text': response.text,",
   "                'headers': dict(response.headers)",
   "            \x7d"]

/-- The method template for request nodes. -/
def pythonHttpRequest : String :=
  methodDocument "httpRequest" pythonHttpRequestCode 2

/-- The code of the method template for condition nodes. -/
def pythonIfCode : List String :=
  ["    def \x7b\x7bmethod_name\x7d\x7d(self) -> None:",
   "        \"\"\"",
   "        Nó IF - Condicional",
   "        \"\"\"",
   "        \x7b\x7bgenerated_code\x7d\x7d",
   "        ",
   "        if \x7b\x7bcondition\x7d\x7d:",
   "            # Caminho verdadeiro",
   "            \x7b\x7btrue_branch\x7d\x7d",
   "        else:",
   "            # Caminho falso",
   "            \x7b\x7bfalse_branch\x7d\x7d",
   "        ",
   "        self.context['\x7b\x7boutput_key\x7d\x7d'] = self.context"]

/-- The method template for condition nodes. -/
def pythonIf : String :=
  methodDocument "if" pythonIfCode 2

/-- The code of the method template for assignment nodes. -/
def pythonSetCode : List String :=
  ["    def \x7b\x7bmethod_name\x7d\x7d(self) -> None:",
   "        \"\"\"",
   "        Nó Set - Define valores no contexto",
   "        \"\"\"",
   "        \x7b\x7bgenerated_code\x7d\x7d"]

/-- The method template for assignment nodes. -/
def pythonSet : String :=
  methodDocument "set" pythonSetCode 2

/-- The code of the method template for agent nodes. -/
def pythonAgentCode : List String :=
  ["    def \x7b\x7bmethod_name\x7d\x7d(self) -> None:",
   "        \"\"\"",
   "        Executa um agente de IA",
   "        ",
   "        Este método executa um agente de IA usando o prompt e modelo configurados.",
   "        Suporta múltiplos provedores de IA (OpenAI, Anthropic, OpenRouter, etc.)",
   "        ",
   "        Raises:",
   "            Exception: Se houver erro na comunicação com a API de IA",
   "        \"\"\"",
   "        try:",
   "            import requests",
   "            import json",
   "            ",
   "            # Parâmetros do agente",
   "            prompt = \x7b\x7bprompt\x7d\x7d",
   "            model = \x7b\x7bmodel\x7d\x7d",
   "            temperature = float(\x7b\x7btemperature\x7d\x7d)",
   "            max_tokens = int(\x7b\x7bmax_tokens\x7d\x7d)",
   "            system_message = \x7b\x7bsystem_message\x7d\x7d",
   "            ",
   "            # Obtém configurações da API (pode ser OpenAI, Anthropic, OpenRouter, etc.)",
   "            api_provider = \x7b\x7bapi_provider\x7d\x7d",
   "            ",
   "            # Usa classe de credenciais apropriada",
   "            api_key = None",
   "            api_url = None",
   "            ",
   "            if 'anthropic' in api_provider.lower() or 'claude' in api_provider.lower():",
   "                from AnthropicCredentials import AnthropicCredentials",
   "                credentials = AnthropicCredentials()",
   "                api_key = credentials.get_api_key()",
   "                api_url = 'https://api.anthropic.com/v1/messages'",
   "            elif 'openrouter' in api_provider.lower():",
   "                from OpenRouterCredentials import OpenRouterCredentials",
   "                credentials = OpenRouterCredentials()",
   "                api_key = credentials.get_api_key()",
   "                api_url = 'https://openrouter.ai/api/v1/chat/completions'",
   "            else:",
   "                from OpenAICredentials import OpenAICredentials",
   "                credentials = OpenAICredentials()",
   "                api_key = credentials.get_api_key()",
   "                api_url = 'https://api.openai.com/v1/chat/completions'",
   "            ",
   "            if not api_key:",
   "                raise Exception(f\"API Key para \x7bapi_provider\x7d não configurada.\")",
   "            ",
   "            # Prepara headers",
   "            headers = \x7b",
   "                'Content-Type': 'application/json',",
   "                'Authorization': f'Bearer \x7bapi_key\x7d'",
   "            \x7d",
   "            ",
   "            # Headers específicos para Anthropic",
   "            if 'anthropic' in api_provider.lower():",
   "                headers['anthropic-version'] = '2023-06-01'",
   "            elif 'openrouter' in api_provider.lower():",
   "                headers['HTTP-Referer'] = os.getenv('APP_URL', 'http://localhost')",
   "                headers['X-Title'] = 'n8ncoding'",
   "            ",
   "            # Prepara mensagens",
   "            messages = []",
   "            ",
   "            # Adiciona mensagem do sistema se fornecida",
   "            if system_message:",
   "                messages.append(\x7b",
   "                    'role': 'system',",
   "                    'content': system_message",
   "                \x7d)",
   "            ",
   "            # Adiciona mensagem do usuário",
   "            messages.append(\x7b",
   "                'role': 'user',",
   "                'content': prompt",
   "            \x7d)",
   "            ",
   "            # Prepara body da requisição",
   "            body = \x7b",
   "                'model': model,",
   "                'messages': messages,",
   "                'temperature': temperature,",
   "                'max_tokens': max_tokens",
   "            \x7d",
   "            ",
   "            \x7b\x7btools_code\x7d\x7d",
   "            ",
   "            # Executa requisição para API de IA",
   "            response = requests.post(",
   "                api_url,",
   "                headers=headers,",
   "                json=body,",
   "                timeout=60",
   "            )",
   "            ",
   "            # Processa resposta",
   "            if response.status_code == 200:",
   "                response_data = response.json()",
   "                ",
   "                # Extrai resposta baseado no formato da API",
   "                ai_response = ''",
   "                if 'choices' in response_data and len(response_data['choices']) > 0:",
   "                    # Formato OpenAI",
   "                    ai_response = response_data['choices'][0]['message']['content']",
   "                elif 'content' in response_data and len(response_data['content']) > 0:",
   "                    # Formato Anthropic",
   "                    ai_response = response_data['content'][0]['text']",
   "                elif 'message' in response_data and 'content' in response_data['message']:",
   "                    # Formato alternativo",
   "                    ai_response = response_data['message']['content']",
   "                else:",
   "                    # Tenta encontrar conteúdo em qualquer lugar",
   "                    ai_response = response_data.get('text') or response_data.get('response') or ''",
   "                ",
   "                # Armazena resultado no contexto",
   "                self.context['\x7b\x7boutput_key\x7d\x7d'] = \x7b",
   "                    'success': True,",
   "                    'response': ai_response,",
   "                    'model': model,",
   "                    'provider': api_provider,",
   "                    'usage': response_data.get('usage', \x7b\x7d),",
   "                    'finish_reason': response_data.get('choices', [\x7b\x7d])[0].get('finish_reason'),",
   "                    'raw_response': response_data",
   "                \x7d",
   "                ",
   "                # Log de sucesso (opcional)",
   "                if self.context.get('debug'):",
   "                    import logging",
   "                    logging.info(",
   "                        f'AI Agent executado com sucesso: Modelo=\x7bmodel\x7d, '",
   "                        f'Tokens=\x7bresponse_data.get(\"usage\", \x7b\x7d).get(\"total_tokens\", 0)\x7d'",
   "                    )",
   "            else:",
   "                # Erro na requisição",
   "                error_message = f'Erro na requisição à API de IA (HTTP \x7bresponse.status_code\x7d)'",
   "                try:",
   "                    error_data = response.json()",
   "                    if 'error' in error_data and 'message' in error_data['error']:",
   "                        error_message += f\": \x7berror_data['error']['message']\x7d\"",
   "                except:",
   "                    error_message += f\": \x7bresponse.text\x7d\"",
   "                ",
   "                self.context['\x7b\x7boutput_key\x7d\x7d'] = \x7b",
   "                    'success': False,",
   "                    'error': error_message,",
   "                    'http_code': response.status_code,",
   "                    'response': response.text,",
   "                    'model': model,",
   "                    'provider': api_provider",
   "                \x7d",
   "                ",
   "                raise Exception(error_message)",
   "        except Exception as e:",
   "            # Em caso de erro, armazena no contexto",
   "            import traceback",
   "            self.context['\x7b\x7boutput_key\x7d\x7d'] = \x7b",
   "                'success': False,",
   "                'error': str(e),",
   "                'exception': type(e).__name__,",
   "                'traceback': traceback.format_exc()",
   "            \x7d",
   "            ",
   "            # Re-lança a exceção para permitir tratamento externo",
   "            raise",
   "        ",
   "        \x7b\x7badditional_code\x7d\x7d"]

/-- The method template for agent nodes. -/
def pythonAgent : String :=
  methodDocument "aiAgent" pythonAgentCode 2

end Flowgen.Template.Shipped
