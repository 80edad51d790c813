import Groundplan.Project.Identity
import Groundplan.Source.Layout

/-!
# The service of a project

The entry point of a generated service sets up logging, builds the application around the routes
and listens on the port that the settings give.
-/

namespace Groundplan.Project

def serviceLines (m : Model) (s : Settings) : List String := [
  "\"\"\"HTTP service entry point for the " ++ Text.docLine m.context.name ++ " bounded context.",
  "",
  "Run with ``python -m " ++ packageName m s ++ ".main`` or ``uvicorn " ++
    packageName m s ++ ".main:app``.",
  "\"\"\"",
  "",
  "from __future__ import annotations",
  "",
  "import logging",
  "",
  "import structlog",
  "import uvicorn",
  "from fastapi import FastAPI",
  "from fastapi.middleware.cors import CORSMiddleware",
  "",
  "from .api.routes import create_router",
  "",
  "SERVICE_PORT = " ++ Text.decimalInt s.servicePort,
  "API_PREFIX = " ++ Text.literal s.apiPath,
  "",
  "logging.basicConfig(level=logging.INFO, format=\"%(message)s\")",
  "",
  "structlog.configure(",
  "    processors=[",
  "        structlog.stdlib.filter_by_level,",
  "        structlog.stdlib.add_logger_name,",
  "        structlog.stdlib.add_log_level,",
  "        structlog.processors.TimeStamper(fmt=\"iso\"),",
  "        structlog.processors.StackInfoRenderer(),",
  "        structlog.processors.format_exc_info,",
  "        structlog.processors.JSONRenderer(),",
  "    ],",
  "    wrapper_class=structlog.stdlib.BoundLogger,",
  "    logger_factory=structlog.stdlib.LoggerFactory(),",
  "    cache_logger_on_first_use=True,",
  ")",
  "",
  "logger = structlog.get_logger(__name__)",
  "",
  "",
  "def create_app() -> FastAPI:",
  "    \"\"\"Build the application with CORS, the domain routes and API docs.\"\"\"",
  "    app = FastAPI(",
  "        title=" ++ Text.literal m.context.name ++ ",",
  "        description=" ++ Text.literal (description m) ++ ",",
  "        version=\"" ++ projectVersion ++ "\",",
  "        docs_url=\"/swagger-ui\",",
  "        openapi_url=\"/api-docs/openapi.json\",",
  "    )",
  "    app.add_middleware(",
  "        CORSMiddleware,",
  "        allow_origins=[\"*\"],",
  "        allow_methods=[\"*\"],",
  "        allow_headers=[\"*\"],",
  "    )",
  "    app.include_router(create_router(), prefix=API_PREFIX)",
  "    return app",
  "",
  "",
  "app = create_app()",
  "",
  "",
  "def main() -> None:",
  "    logger.info(\"Starting service\", context=" ++ Text.literal m.context.name ++
    ", port=SERVICE_PORT)",
  "    uvicorn.run(app, host=\"0.0.0.0\", port=SERVICE_PORT)",
  "",
  "",
  "if __name__ == \"__main__\":",
  "    main()"]

def service (m : Model) (s : Settings) : String :=
  Source.fileText (serviceLines m s)

end Groundplan.Project
